import Kernel391.User.Launching

/-!
# Programs that show files

`cat` and `ls`: from any state of the kernel that hosts them they end, with the status and the
output that the volume says (`cat_shows`, `ls_lists`). Their loops are over what a stream still has
to give.
-/

namespace Kernel391.User
open Base

/-- What a stream still has to give. -/
def Stream.text : Stream → List UInt8
  | .device => []
  | .directory names => names.flatten
  | .file _ rest => rest
  | .broken => []

/-- How many reads a stream has left, but for the one that finds its end. -/
def Stream.size : Stream → Nat
  | .device => 0
  | .directory names => names.length
  | .file _ rest => rest.length
  | .broken => 0

/-- The names of a directory are not empty, and fit a slot. -/
def Named (names : List (List UInt8)) : Prop := ∀ e ∈ names, e ≠ [] ∧ e.length ≤ 32

/-- A literal without NUL, and not longer than the calls take. -/
def Printable (literal : String) : Prop :=
  (∀ b ∈ bytesOf literal.toList, b ≠ 0) ∧ (bytesOf literal.toList).length ≤ 1024

/-- Whether a literal can be printed can be read from it. -/
instance (literal : String) : Decidable (Printable literal) := inferInstanceAs (Decidable (_ ∧ _))

namespace World

/-- The reads of a stream go through. -/
def Readable (w : World) : Stream → Prop
  | .device => True
  | .directory names => Named names
  | .file inode rest => w.Counts inode ∨ rest = []
  | .broken => False

/-- The world in which the process has printed `bs` more. -/
def print (w : World) (bs : List UInt8) : World := { w with output := w.output ++ bs }

/-- What `cat` prints of the file `name`, and its status. -/
def shown (w : World) (name : List UInt8) : List UInt8 × Int :=
  match w.volume.find name with
  | none => (bytesOf "file not found\n".toList, 2)
  | some i =>
    let e := w.volume.entry i
    match e.fileType with
    | 0 => ([], 0)
    | 1 => (w.volume.names.flatten, 0)
    | _ =>
      let text := w.volume.contents e.inode
      if text = [] ∨ e.inode ≤ (overwrite w.header e.name).word 4 then (text, 0)
      else (bytesOf "file read failed\n".toList, 3)

/-- What `cat` prints, and its status. -/
def catOutcome (w : World) : List UInt8 × Int :=
  match w.args with
  | none => (bytesOf "could not read arguments\n".toList, 3)
  | some name => w.shown name

/-- What `ls` prints, and its status. -/
def lsOutcome (w : World) : List UInt8 × Int :=
  match w.volume.find [46] with
  | none => (bytesOf "directory open failed\n".toList, 2)
  | some _ => (w.volume.names.flatMap (· ++ [10]), 0)

end World

section Calls

variable {n fd : Nat} {w : World} {x : Stream} {bs text : List UInt8} {a : Answer}

/-- Printing nothing. -/
lemma print_nil (w : World) : w.print [] = w := by
  rw [World.print, List.append_nil]

/-- Printing in two parts. -/
lemma print_print (w : World) (bs bs' : List UInt8) :
    (w.print bs).print bs' = w.print (bs ++ bs') := by
  rw [World.print, World.print, World.print, List.append_assoc]

/-- A `write` to the terminal prints. -/
lemma step_print (short : bs.length ≤ 1024) :
    World.step w (.write 1 bs) = some (w.print bs, ⟨bs.length, []⟩) := by
  rw [World.step, if_neg]
  · rfl
  · rw [not_or, not_not]
    exact ⟨by omega, by decide⟩

/-- A `read` takes from its stream. -/
lemma step_read {w' : World} (small : n ≤ 1024) (low : 2 ≤ fd) (high : fd < 7)
    (opened : w.fds fd = some x) {y : Stream} (run : w.readStream n x = some (y, a))
    (e : w' = w.setFd fd (some y)) :
    World.step w (.read fd n) = some (w', a) := by
  have range : World.Int32 fd := ⟨by omega, by omega⟩
  rw [World.step, if_neg]
  · rw [World.read, if_neg (by omega), if_neg (by omega), Int.toNat_natCast, opened]
    dsimp only
    rw [run, e]
    rfl
  · rw [not_or, not_not]
    exact ⟨by omega, range⟩

/-- A store keeps the length of the buffer. -/
lemma length_storeAt {buf : List UInt8} {o : Nat} (fits : o + bs.length ≤ buf.length) :
    (storeAt buf o bs).length = buf.length := by
  rw [storeAt, List.length_append, List.length_append, List.length_take, List.length_drop]
  omega

/-- What was stored is there. -/
lemma storeAt_take (buf : List UInt8) : (storeAt buf 0 bs).take bs.length = bs := by
  rw [storeAt, List.take_zero, List.nil_append, List.take_left]

/-- A store into an array with room for it. -/
lemma ends_store {α : Type} {Q : α → World → Prop} {buf : List UInt8} {o : Nat}
    {f : List UInt8 → Prog α} (fits : o + bs.length ≤ buf.length)
    (rest : Program.Ends World.step Q (f (storeAt buf o bs)) w) :
    Program.Ends World.step Q (need (store buf o bs) >>= f) w := .need (if_pos fits) rest

/-- The first bytes of an array that is long enough. -/
lemma ends_front {α : Type} {Q : α → World → Prop} {buf : List UInt8} {k : Nat}
    {f : List UInt8 → Prog α} (fits : k ≤ buf.length)
    (rest : Program.Ends World.step Q (f (buf.take k)) w) :
    Program.Ends World.step Q (need (front buf k) >>= f) w := .need (if_pos fits) rest

/-- The length of a string in a buffer. -/
lemma strlen_append {junk : List UInt8} (nonzero : ∀ b ∈ text, b ≠ 0) :
    ece391Strlen (text ++ 0 :: junk) = some text.length := by
  induction text with
  | nil => rfl
  | cons b text ih =>
    have rest := ih fun c hc => nonzero c (List.mem_cons_of_mem b hc)
    rw [List.cons_append, ece391Strlen, if_neg (nonzero b List.mem_cons_self), rest]
    rfl

/-- `ece391_fdputs` of a text to the terminal. -/
lemma ends_fdputs {Q : Unit → World → Prop} {junk : List UInt8} (nonzero : ∀ b ∈ text, b ≠ 0)
    (short : text.length ≤ 1024) (h : Q () (w.print text)) :
    Program.Ends World.step Q (ece391Fdputs 1 (text ++ 0 :: junk)) w := by
  rw [ece391Fdputs, strlen_append nonzero]
  refine .bind (.done (.bind (.perform (step_print ?_) (.done ?_))))
  · rw [List.take_left]
    exact short
  · rw [List.take_left]
    exact h

/-- `ece391_fdputs` of a literal. -/
lemma ends_puts {Q : Unit → World → Prop} {literal : String} (plain : Printable literal)
    (h : Q () (w.print (bytesOf literal.toList))) :
    Program.Ends World.step Q (ece391Fdputs 1 (lit literal)) w :=
  ends_fdputs plain.1 plain.2 h

/-- The directory has no more names. -/
lemma readStream_end (long : 32 ≤ n) : w.readStream n (.directory []) = some (.broken, ⟨0, []⟩) :=
  if_neg (by omega)

/-- The next name of the directory. -/
lemma readStream_name {e : List UInt8} {names : List (List UInt8)} (long : 32 ≤ n) :
    w.readStream n (.directory (e :: names)) = some (.directory names, ⟨e.length, e⟩) :=
  if_neg (by omega)

/-- One read of a stream that goes through. -/
lemma readStream_text (h : w.Readable x) (long : 32 ≤ n) : ∃ y bs,
    w.readStream n x = some (y, ⟨bs.length, bs⟩) ∧ x.text = bs ++ y.text ∧ bs.length ≤ n ∧
      (bs = [] → x.text = []) ∧ (bs ≠ [] → w.Readable y ∧ y.size < x.size) := by
  cases x with
  | device => exact ⟨.device, [], rfl, rfl, Nat.zero_le n, fun _ => rfl, fun ne => absurd rfl ne⟩
  | broken => exact h.elim
  | directory names =>
    cases names with
    | nil =>
      exact ⟨.broken, [], readStream_end long, rfl, Nat.zero_le n, fun _ => rfl,
        fun ne => absurd rfl ne⟩
    | cons e names =>
      obtain ⟨ne, le⟩ := h e List.mem_cons_self
      refine ⟨.directory names, e, readStream_name long,
        rfl, by omega, fun nil => absurd nil ne, fun _ => ?_⟩
      exact ⟨fun e' he => h e' (List.mem_cons_of_mem e he), Nat.lt_succ_self _⟩
  | file inode rest =>
    refine ⟨.file inode (rest.drop n), rest.take n, if_pos h, (List.take_append_drop n rest).symm,
      List.length_take_le .., fun nil => ?_, fun ne => ⟨?_, ?_⟩⟩
    · rcases List.take_eq_nil_iff.mp nil with zero | nil
      · omega
      · exact nil
    · rcases h with counts | nil
      · exact .inl counts
      · exact .inr (by rw [nil, List.drop_nil])
    · have some_left : rest ≠ [] := by
        rintro rfl
        exact ne List.take_nil
      have length := List.length_pos_iff.mpr some_left
      show (rest.drop n).length < rest.length
      rw [List.length_drop]
      omega

/-- The size of the stream behind a descriptor. -/
def World.left (w : World) (fd : Nat) : Nat := ((w.fds fd).map Stream.size).getD 0

/-- Descriptor `fd` is readable, and what was printed and what is left of it are `out`. -/
def World.Showing (w : World) (fd : Nat) (out : List UInt8) : Prop :=
  ∃ x, w.fds fd = some x ∧ w.Readable x ∧ w.output ++ x.text = out

/-- Whether reads go through only depends on the header. -/
lemma World.Readable.congr {w' : World} (h : w.Readable x) (e : w'.header = w.header) :
    w'.Readable x := by
  cases x with
  | file inode rest =>
    rw [World.Readable, World.Counts, e]
    exact h
  | _ => exact h

/-- One read of a stream that is shown: it is at its end, or gives bytes that are then printed. -/
lemma World.Showing.read {out : List UInt8} (h : w.Showing fd out) (long : 32 ≤ n)
    (small : n ≤ 1024) (low : 2 ≤ fd) (high : fd < 7) : ∃ w' bs, World.step w (.read fd n)
    = some (w', ⟨bs.length, bs⟩) ∧
      bs.length ≤ n ∧ (bs = [] → w'.output = out) ∧
      (bs ≠ [] → (w'.print bs).Showing fd out ∧ (w'.print bs).left fd < w.left fd) := by
  obtain ⟨x, opened, readable, rfl⟩ := h
  obtain ⟨y, bs, read, text, short, done, more⟩ := readStream_text readable long
  refine ⟨_, bs, step_read small low high opened read rfl, short, fun nil => ?_, fun ne => ?_⟩
  · rw [done nil, List.append_nil]
    rfl
  · obtain ⟨readable', less⟩ := more ne
    have now : ((w.setFd fd (some y)).print bs).fds fd = some y := Function.update_self ..
    refine ⟨⟨y, now, readable'.congr rfl, ?_⟩, ?_⟩
    · rw [text, ← List.append_assoc]
      rfl
    · rw [World.left, World.left, now, opened]
      exact less

/-- A name that the volume does not have is not opened. -/
lemma openFile_missing {name : List UInt8} (short : name.length ≤ 32)
    (found : w.volume.find name = none) :
    w.openFile name = some (w, ⟨-1, []⟩) := by
  rw [World.openFile, if_neg (by omega), found]

/-- A name that the volume has is opened. -/
lemma openFile_found {name : List UInt8} {i c : Nat} {w' : World} (short : name.length ≤ 32)
    (found : w.volume.find name = some i) (counted : i ≤ w.header.word 0) (free : w.free = some c)
    (enter : w.enter i = some (w', x)) : w.openFile name = some (w'.setFd c (some x), ⟨c, []⟩) := by
  rw [World.openFile, if_neg (by omega), found]
  dsimp only
  rw [if_neg (by omega), free]
  dsimp only
  rw [enter]
  rfl

/-- The rtc is opened. -/
lemma enter_device {i : Nat} (type : (w.volume.entry i).fileType = 0) :
    w.enter i = some (w, .device) := by
  simp only [World.enter, type]

/-- The directory is opened at its first name. -/
lemma enter_directory {i : Nat} (type : (w.volume.entry i).fileType = 1) :
    w.enter i = some (w, .directory w.volume.names) := by
  simp only [World.enter, type]

/-- A file is opened at its start, and its name overwrites the header. -/
lemma enter_file {i : Nat} (type : (w.volume.entry i).fileType = 2) :
    w.enter i = some ({ w with header := World.overwrite w.header (w.volume.entry i).name },
      .file (w.volume.entry i).inode (w.volume.contents (w.volume.entry i).inode)) := by
  simp only [World.enter, type]

end Calls

section Cat

variable {n fd : Nat} {w : World} {out buf : List UInt8}

/-- The loop of `cat` over a stream that can be read. -/
lemma ends_catLoop (h : w.Showing fd out) (length : buf.length = 1024) (low : 2 ≤ fd)
    (high : fd < 7) (enough : w.left fd < n) :
    Program.Ends World.step (fun r w' => r = 0 ∧ w'.output = out) (loop (catChunk fd) n buf) w := by
  refine Program.Ends.loop (fun buf w => buf.length = 1024 ∧ w.Showing fd out)
    (fun _ w => w.left fd)
    (fun buf w h => ?_) ⟨length, h⟩ enough
  obtain ⟨length, h⟩ := h
  obtain ⟨w', bs, read, short, done, more⟩ := h.read (by decide) (Nat.le_refl 1024) low high
  refine .bind (.perform read ?_)
  dsimp only
  refine ends_store (by omega) ?_
  by_cases nil : bs = []
  · rw [if_pos (by rw [nil]; rfl)]
    exact .done ⟨rfl, done nil⟩
  · have pos := List.length_pos_iff.mpr nil
    have kept : (storeAt buf 0 bs).length = buf.length := length_storeAt (by omega)
    rw [if_neg (by omega), if_neg (by omega), Int.toNat_natCast]
    refine ends_front (by omega) ?_
    rw [storeAt_take]
    refine .bind (.perform (step_print short) ?_)
    dsimp only
    rw [if_neg (by omega)]
    exact .done ⟨⟨kept.trans length, (more nil).1⟩, (more nil).2⟩

/-- The loop of `cat` over a file of which no read goes through. -/
lemma ends_catLoop_broken {inode : Nat} {text : List UInt8}
    (opened : w.fds fd = some (.file inode text)) (broken : ¬ (w.Counts inode ∨ text = []))
    (low : 2 ≤ fd) (high : fd < 7) (pos : 0 < n) :
    Program.Ends World.step
      (fun r w' => r = 3 ∧ w'.output = w.output ++ bytesOf "file read failed\n".toList)
      (loop (catChunk fd) n buf) w := by
  obtain ⟨n, rfl⟩ := Nat.exists_eq_succ_of_ne_zero pos.ne'
  have read := step_read (Nat.le_refl 1024) low high opened (if_neg broken) rfl
  refine .andThen (.bind (.perform read (ends_store (Nat.zero_le _) ?_)))
  dsimp only
  rw [if_neg (by decide), if_pos rfl]
  exact .bind (ends_puts (by decide +kernel) (.done (.done ⟨rfl, rfl⟩)))

/-- The string in a buffer. -/
lemma upToNul_append {text junk : List UInt8} (nonzero : ∀ b ∈ text, b ≠ 0) :
    upToNul (text ++ 0 :: junk) = text := by
  rw [upToNul, List.takeWhile_append_of_pos fun b hb => decide_eq_true (nonzero b hb)]
  exact List.append_nil text

/-- The argument in the buffer of `getargs`. -/
lemma storeAt_args {a : List UInt8} (buf : List UInt8) (nonzero : ∀ b ∈ a, b ≠ 0)
    (short : a.length < n) :
    ∃ junk, storeAt buf 0 (strncpy (cstring a) n) = a ++ 0 :: junk := by
  have byte (j : Nat) (hj : j < n) : (strncpy (cstring a) n).getD j 0 = a.getD j 0 :=
    strncpy_cstring nonzero hj
  have inside : a.length < (strncpy (cstring a) n).length := by
    rw [length_strncpy]
    exact short
  have start : (strncpy (cstring a) n).take a.length = a := by
    apply List.ext_getElem
    · rw [List.length_take, Nat.min_eq_left (Nat.le_of_lt inside)]
    · intro j hj hj'
      have same := byte j (by omega)
      rw [List.getD_eq_getElem _ _ (by omega), List.getD_eq_getElem _ _ hj'] at same
      rw [List.getElem_take]
      exact same
  have ends : (strncpy (cstring a) n)[a.length] = 0 := by
    have zero := byte a.length short
    rw [List.getD_eq_getElem _ _ inside, List.getD_eq_default _ _ (Nat.le_refl _)] at zero
    exact zero
  refine ⟨(strncpy (cstring a) n).drop (a.length + 1) ++ buf.drop
    (0 + (strncpy (cstring a) n).length), ?_⟩
  rw [storeAt, List.take_zero, List.nil_append]
  nth_rewrite 1 [← List.take_append_drop a.length (strncpy (cstring a) n)]
  rw [start, List.drop_eq_getElem_cons inside, ends, List.append_assoc]
  rfl

/-- `cat` with its argument `a`, once `a` was opened. -/
lemma ends_catNamed {Q : Int → World → Prop} {a : List UInt8} {w' : World} {r : Answer}
    (held : w.args = some a)
    (nonzero : ∀ b ∈ a, b ≠ 0) (short : a.length ≤ 32) (run : w.openFile a = some (w', r))
    (length : buf.length = 1024)
    (rest : r.ret ≠ -1 → ∀ buf, buf.length = 1024 →
    Program.Ends World.step Q (loop (catChunk r.ret) n buf) w')
    (missing : r.ret = -1 → Q 2 (w'.print (bytesOf "file not found\n".toList))) :
    Program.Ends World.step Q (cat n buf) w := by
  have answer : World.step w (.getargs 1024) = some (w, ⟨0, strncpy (cstring a) 1024⟩) := by
    rw [World.step, if_neg (by decide), held]
  obtain ⟨junk, name⟩ := storeAt_args buf nonzero (show a.length < 1024 by omega)
  have fits : 0 + (strncpy (cstring a) 1024).length ≤ buf.length := by
    rw [length_strncpy]
    omega
  refine .bind (.perform answer (ends_store fits ?_))
  dsimp only
  rw [if_neg (by decide)]
  have call : World.step w (.open (storeAt buf 0 (strncpy (cstring a) 1024))) = some (w', r) := by
    rw [World.step, name, upToNul_append nonzero]
    exact run
  refine .bind (.perform call ?_)
  split_ifs with failed
  · exact .bind (ends_puts (by decide +kernel) (.done (missing failed)))
  · exact rest failed _ ((length_storeAt fits).trans length)

/-- `cat` of a stream that can be read. -/
lemma ends_catOpened {a : List UInt8} {i c : Nat} {w' : World} {x : Stream}
    (length : buf.length = 1024) (held : w.args = some a) (nonzero : ∀ b ∈ a, b ≠ 0)
    (short : a.length ≤ 32) (found : w.volume.find a = some i) (counted : i ≤ w.header.word 0)
    (free : w.free = some c) (high : c < 7) (enter : w.enter i = some (w', x))
    (same : w'.output = w.output) (readable : w'.Readable x) (enough : x.size < n) :
    Program.Ends World.step (fun r w' => r = 0 ∧ w'.output = w.output ++ x.text) (cat n buf) w := by
  have now : (w'.setFd c (some x)).fds c = some x := Function.update_self ..
  refine ends_catNamed held nonzero short (openFile_found short found counted free enter) length
    (fun _ buf length => ?_) (fun failed => ?_)
  · refine ends_catLoop ⟨x, now, readable.congr rfl, ?_⟩ length (World.free_spec free).1 high ?_
    · rw [← same]
      rfl
    · rw [World.left, now]
      exact enough
  · dsimp only at failed
    omega

/-- **`cat` in its world.** -/
lemma ends_cat (length : buf.length = 1024) (named : Named w.volume.names)
    (free : ∃ c < 7, w.free = some c)
    (args : ∀ a ∈ w.args, (∀ b ∈ a, b ≠ 0) ∧ a.length ≤ 32 ∧ ∀ i, w.volume.find a = some i →
      i ≤ w.header.word 0 ∧ (w.volume.entry i).fileType ≤ 2) :
    ∃ passes, ∀ n, passes ≤ n → Program.Ends World.step
      (fun r w' => r = w.catOutcome.2 ∧ w'.output = w.output ++ w.catOutcome.1) (cat n buf) w := by
  cases held : w.args with
  | none =>
    have outcome : w.catOutcome = (bytesOf "could not read arguments\n".toList, 3) := by
      rw [World.catOutcome, held]
    have answer : World.step w (.getargs 1024) = some (w, ⟨-1, []⟩) := by
      rw [World.step, if_neg (by decide), held]
    refine ⟨0, fun n _ => ?_⟩
    rw [outcome, cat]
    refine .bind (.perform answer (ends_store (Nat.zero_le _) ?_))
    dsimp only
    rw [if_pos (by decide)]
    exact .bind (ends_puts (by decide +kernel) (.done ⟨rfl, rfl⟩))
  | some a =>
    obtain ⟨nonzero, short, known⟩ := args a held
    obtain ⟨c, high, free⟩ := free
    have low := (World.free_spec free).1
    have outcome : w.catOutcome = w.shown a := by rw [World.catOutcome, held]
    rw [outcome]
    cases found : w.volume.find a with
    | none =>
      refine ⟨0, fun n _ => ?_⟩
      rw [World.shown, found]
      refine ends_catNamed held nonzero short (openFile_missing short found) length
        (fun opened => ?_)
        (fun _ => ⟨rfl, rfl⟩)
      exact absurd rfl opened
    | some i =>
      obtain ⟨counted, kind⟩ := known i found
      rw [World.shown, found]
      dsimp only
      have kinds : (w.volume.entry i).fileType = 0 ∨ (w.volume.entry i).fileType = 1 ∨
        (w.volume.entry i).fileType = 2 := by omega
      rcases kinds with type | type | type
      · rw [type]
        exact ⟨_, fun n enough => ends_catOpened length held nonzero short found counted free high
          (enter_device type) rfl trivial enough⟩
      · rw [type]
        exact ⟨_, fun n enough => ends_catOpened length held nonzero short found counted free high
          (enter_directory type) rfl named enough⟩
      · rw [type]
        split_ifs with reads
        · exact ⟨_, fun n enough => ends_catOpened length held nonzero short found counted free high
            (enter_file type) rfl reads.symm enough⟩
        · refine ⟨1, fun n pos => ends_catNamed held nonzero short
            (openFile_found short found counted free (enter_file type)) length (fun _ buf _ => ?_)
            (fun failed => ?_)⟩
          · exact ends_catLoop_broken (Function.update_self ..) (fun h => reads h.symm) low high pos
          · dsimp only at failed
            omega

end Cat

section Ls

variable {n fd : Nat} {w : World} {buf : List UInt8}

/-- A name in the buffer, with the newline put behind it. -/
lemma newline_storeAt (e : List UInt8) :
    (storeAt (storeAt buf 0 e) e.length [10]).take (e.length + 1) = e ++ [10] := by
  have length : (e ++ [10]).length = e.length + 1 := List.length_append
  rw [storeAt, storeAt_take, ← length, List.take_left]

/-- The loop of `ls` over what is left of the directory. -/
lemma ends_lsLoop {names : List (List UInt8)} (opened : w.fds fd = some (.directory names))
    (named : Named names) (length : buf.length = 33) (low : 2 ≤ fd) (high : fd < 7)
    (enough : names.length < n) :
    Program.Ends World.step (fun r w' => r = 0 ∧ w'.output = w.output ++ names.flatMap (· ++ [10]))
      (loop (lsEntry fd) n buf) w := by
  induction n generalizing w buf names with
  | zero => exact absurd enough (Nat.not_lt_zero _)
  | succ n ih =>
    cases names with
    | nil =>
      have read := step_read (by decide) low high opened (readStream_end (Nat.le_refl 32)) rfl
      refine .andThen (.bind (.perform read (ends_store (Nat.zero_le _) ?_)))
      dsimp only
      rw [if_pos rfl]
      exact .done (.done ⟨rfl, (List.append_nil _).symm⟩)
    | cons e names =>
      obtain ⟨ne, short⟩ := named e List.mem_cons_self
      have pos := List.length_pos_iff.mpr ne
      have read := step_read (by decide) low high opened (readStream_name (Nat.le_refl 32)) rfl
      have kept : (storeAt buf 0 e).length = buf.length := length_storeAt (by omega)
      have kept' : (storeAt (storeAt buf 0 e) e.length [10]).length = (storeAt buf 0 e).length :=
        length_storeAt (by rw [List.length_singleton]; omega)
      refine .andThen (.bind (.perform read ?_))
      dsimp only
      refine ends_store (by omega) ?_
      rw [if_neg (by omega), if_neg (by omega), Int.toNat_natCast]
      refine ends_store (by rw [List.length_singleton]; omega) (ends_front (by omega) ?_)
      rw [newline_storeAt]
      have fits : (e ++ [10]).length ≤ 1024 := by
        rw [List.length_append, List.length_singleton]
        omega
      refine .bind (.perform (step_print fits) ?_)
      dsimp only
      rw [if_neg (by omega)]
      refine .done ((ih (Function.update_self fd (some (.directory names)) w.fds)
        (fun e he => named e (List.mem_cons_of_mem _ he)) ?_ (by simpa using enough)).mono ?_)
      · rw [kept', kept, length]
      · rintro r w' ⟨rfl, out⟩
        refine ⟨rfl, out.trans ?_⟩
        rw [List.flatMap_cons, ← List.append_assoc]
        rfl

/-- **`ls` in its world.** -/
lemma ends_ls (named : Named w.volume.names) (free : ∃ c < 7, w.free = some c)
    (length : buf.length = 33)
    (directory : ∀ i, w.volume.find [46] = some i → i ≤ w.header.word 0 ∧
    (w.volume.entry i).fileType = 1)
    (enough : w.volume.count < n) :
    Program.Ends World.step (fun r w' => r = w.lsOutcome.2 ∧ w'.output = w.output ++ w.lsOutcome.1)
      (ls n buf) w := by
  have opens {w' : World} {r : Answer} (run : w.openFile [46] = some (w', r)) :
      World.step w (.open (lit ".")) = some (w', r) := by
    rw [World.step]
    exact run
  cases found : w.volume.find [46] with
  | none =>
    rw [World.lsOutcome, found]
    refine .bind (.perform (opens (openFile_missing (by decide) found)) ?_)
    dsimp only
    rw [if_pos rfl]
    exact .bind (ends_puts (by decide +kernel) (.done ⟨rfl, rfl⟩))
  | some i =>
    obtain ⟨c, high, free⟩ := free
    obtain ⟨counted, type⟩ := directory i found
    rw [World.lsOutcome, found]
    refine .bind
      (.perform (opens (openFile_found (by decide) found counted free (enter_directory type))) ?_)
    dsimp only
    rw [if_neg (by omega)]
    refine (ends_lsLoop (Function.update_self ..) named length
      (World.free_spec free).1 high ?_).mono fun r w' h => h
    rw [Volume.names, List.length_map, List.length_range]
    exact enough

end Ls

/-! ## On the kernel -/

section Started

variable {m : Mem} {modStart : Nat}

/-- The names of the volume have 1 to 32 bytes. -/
lemma VolumeImage.named (image : VolumeImage m modStart) : Named (volumeOf m modStart).names := by
  intro e he
  obtain ⟨i, hi, rfl⟩ := List.mem_map.mp he
  refine ⟨fun nil => ?_, length_entryName_le ..⟩
  obtain ⟨l, -, e, -, zero⟩ := entryName_spec (filesystemInit m modStart) m i
  have empty : l = 0 := by
    have length := congrArg List.length (e.symm.trans nil)
    rw [List.length_map, List.length_range] at length
    exact length
  rw [empty] at zero
  exact image.nonempty i (List.mem_range.mp hi) (zero (by decide))

/-- Every slot is of a known type. -/
lemma VolumeImage.fileType_le (image : VolumeImage m modStart) {i : Nat} (hi : i < 63) :
    ((volumeOf m modStart).entry i).fileType ≤ 2 := by
  rcases Nat.lt_or_ge i ((filesystemInit m modStart).dentryNum m) with used | unused
  · exact image.fileType i used
  · have below := image.below
    have start : (filesystemInit m modStart).dentry i = modStart + 64 + 64 * i := rfl
    rw [imageSize] at below
    have zero (k : Nat) (hk : k < 64) : m.byte ((filesystemInit m modStart).dentry i + k) = 0 := by
      rw [Mem.byte_of_lt (by omega)]
      exact image.blank i hi unused k hk
    show m.word ((filesystemInit m modStart).dentry i + 32) ≤ 2
    rw [Mem.word, zero 32 (by decide), zero 33 (by decide), zero 34 (by decide),
      zero 35 (by decide)]
    decide

/-- The header of a fresh world is the kernel's. -/
lemma header_freshWorld (image : VolumeImage m modStart) (s : Kernel) (a : List UInt8)
    (input : Option (List UInt8)) {j : Nat} (hj : j + 4 ≤ 8) :
    (freshWorld m modStart s a input).header.word j = s.mem.word (modStart + j) := by
  apply word_transfer
  intro i hi
  have below := (image.lt (image.inHead (k := j + i) (by omega))).2
  rw [Nat.add_assoc, Mem.byte_of_lt (by omega), Mem.byte_of_lt (by omega)]
  rfl

/-- A fresh world has descriptor 2 free. -/
lemma free_freshWorld (s : Kernel) (a : List UInt8) (input : Option (List UInt8)) :
    (freshWorld m modStart s a input).free = some 2 := rfl

variable {s s' : Kernel} {fr : Frame} {pid : Int} {eip : Nat} {command word a : List UInt8}
  {area : BitVec 32}

/-- **`cat` shows a file**: started on a kernel that is ready, `cat` ends, once its loop has passes
enough, with the status and the screen that the volume says. -/
theorem cat_shows (fr' : Frame) (ready : Ready m modStart s) (line : CommandLine command word a)
    (short : a.length < 32)
    (started : s.execute fr (some command) = some (s', .user pid eip)) (page : InUserPage area 1024)
    (counted : ∀ i, (volumeOf m modStart).find a = some i → i ≤ s.mem.word modStart)
    {buf : List UInt8} (length : buf.length = 1024) : ∃ passes, ∀ n, passes ≤ n → ∃ s'',
      (cat n buf).run (serve fr' area) s'
        = some (s'', (freshWorld m modStart s a none).catOutcome.2) ∧
      screenOf (s''.pane s''.getNTerminal)
        = screenOf ((freshWorld m modStart s a none).catOutcome.1.foldl Pane.print
          (s.pane s.getNTerminal)) := by
  obtain ⟨passes, ends⟩ := ends_cat (w := freshWorld m modStart s a none) length ready.image.named
    ⟨2, by decide, free_freshWorld s a none⟩ (fun text held => by
      have same : argsOf a = some text := held
      rw [argsOf] at same
      split_ifs at same
      obtain rfl := Option.some.inj same
      refine ⟨line.arg, Nat.le_of_lt short, fun i found => ⟨?_, ?_⟩⟩
      · rw [header_freshWorld ready.image s a none (by decide)]
        exact counted i found
      · exact ready.image.fileType_le (by have := (Volume.find_spec found).1; omega))
  refine ⟨passes, fun n enough => ?_⟩
  obtain ⟨s'', r, run, w, ⟨rfl, out⟩, shows⟩ := ends_execute fr' ready line short
    (fun l hl => absurd hl (Option.not_mem_none l)) started page (ends n enough)
  rw [out] at shows
  exact ⟨s'', run, shows⟩

/-- `cat shell` on the small machine. -/
theorem cat_shows_sample : ∃ s s' : Kernel, ∃ n,
    sampleStart ['s', 'h', 'e', 'l', 'l'] = some (s, .user 0 0x08048018) ∧
      (cat n (List.replicate 1024 0)).run (serve sampleFrame 0x08048100) s = some (s', 0) := by
  have start : (sampleStart ['s', 'h', 'e', 'l', 'l']).map Prod.snd
      = some (.user 0 0x08048018) := by decide +kernel
  obtain ⟨⟨s, c⟩, started, rfl⟩ := Option.map_eq_some_iff.mp start
  have plain : ∀ b ∈ bytesOf ['s', 'h', 'e', 'l', 'l'],
    b ≠ 0 := List.all_iff_forall_prop.mp (by decide)
  have counted : ∀ i ∈ (volumeOf sampleRam 0x600000).find (bytesOf ['s', 'h', 'e', 'l', 'l']),
      i ≤ (Kernel.boot sampleBoot).mem.word 0x600000 := by decide +kernel
  have status : (freshWorld sampleRam 0x600000 (Kernel.boot sampleBoot)
      (bytesOf ['s', 'h', 'e', 'l', 'l']) none).catOutcome.2 = 0 := by decide +kernel
  have page : InUserPage 0x08048100 1024 := ⟨by decide, by decide⟩
  obtain ⟨n, shows⟩ := cat_shows sampleFrame ready_sample (commandLine_sample plain (by decide))
    (by decide) started page counted (List.length_replicate (n := 1024) (a := (0 : UInt8)))
  obtain ⟨s', run, -⟩ := shows n (Nat.le_refl n)
  rw [status] at run
  exact ⟨s, s', n, started, run⟩

/-- **`ls` lists the directory**: each name on a line of its own. -/
theorem ls_lists (fr' : Frame) (ready : Ready m modStart s) (line : CommandLine command word a)
    (short : a.length < 32)
    (started : s.execute fr (some command) = some (s', .user pid eip)) (page : InUserPage area 1024)
    (directory : ∀ i, (volumeOf m modStart).find [46] = some i →
      i ≤ s.mem.word modStart ∧ ((volumeOf m modStart).entry i).fileType = 1)
    {buf : List UInt8} (length : buf.length = 33) {n : Nat}
    (enough : (volumeOf m modStart).count < n) :
    ∃ s'', (ls n buf).run (serve fr' area) s' = some
      (s'', (freshWorld m modStart s a none).lsOutcome.2) ∧
      screenOf (s''.pane s''.getNTerminal)
        = screenOf ((freshWorld m modStart s a none).lsOutcome.1.foldl Pane.print
          (s.pane s.getNTerminal)) := by
  have ends := ends_ls (w := freshWorld m modStart s a none) ready.image.named
    ⟨2, by decide, free_freshWorld s a none⟩ length (fun i found => by
      rw [header_freshWorld ready.image s a none (by decide)]
      exact directory i found) enough
  obtain ⟨s'', r, run, w, ⟨rfl, out⟩, shows⟩ := ends_execute fr' ready line short
    (fun l hl => absurd hl (Option.not_mem_none l)) started page ends
  rw [out] at shows
  exact ⟨s'', run, shows⟩

/-- `ls` on the small machine. -/
theorem ls_lists_sample : ∃ s s' : Kernel, sampleStart ['.'] = some (s, .user 0 0x08048018) ∧
    (ls 64 (List.replicate 33 0)).run (serve sampleFrame 0x08048100) s = some (s', 0) := by
  have start : (sampleStart ['.']).map Prod.snd = some (.user 0 0x08048018) := by decide +kernel
  obtain ⟨⟨s, c⟩, started, rfl⟩ := Option.map_eq_some_iff.mp start
  have plain : ∀ b ∈ bytesOf ['.'], b ≠ 0 := List.all_iff_forall_prop.mp (by decide)
  have directory : ∀ i ∈ (volumeOf sampleRam 0x600000).find [46],
      i ≤ (Kernel.boot sampleBoot).mem.word 0x600000 ∧
        ((volumeOf sampleRam 0x600000).entry i).fileType = 1 := by decide +kernel
  have status :
    (freshWorld sampleRam 0x600000 (Kernel.boot sampleBoot) (bytesOf ['.']) none).lsOutcome.2
      = 0 := by decide +kernel
  have page : InUserPage 0x08048100 1024 := ⟨by decide, by decide⟩
  obtain ⟨s', run, -⟩ := ls_lists sampleFrame ready_sample (commandLine_sample plain (by decide))
    (by decide) started page directory (List.length_replicate (n := 33)
      (a := (0 : UInt8))) (n := 64)
    (by decide +kernel)
  rw [status] at run
  exact ⟨s, s', started, run⟩

end Started

end Kernel391.User
