import Kernel391.Process.Bracket
import Kernel391.Process.UserPages
import Mathlib.Data.Bool.AllAny

/-!
# Arguments

The argument of a command line goes through three copies: `execute` cuts it out of the line into a
local buffer, copies that buffer to the control block of the process it starts, and `getargs` copies
the block's field to the process. The field has 32 bytes and no room for a terminator, so an
argument of 32 bytes ends where the memory behind the control block has a NUL.
-/

namespace Kernel391
open Base

/-- A command line: spaces, a program word, spaces and the argument text `a`. -/
structure CommandLine (command word a : List UInt8) : Prop where
  parts : ∃ i j,
    command = List.replicate i 32 ++ (word ++ (List.replicate j 32 ++ a)) ∧ (j = 0 → a = [])
  word_ne : word ≠ []
  word : ∀ b ∈ word, b ≠ 32 ∧ b ≠ 0
  arg : ∀ b ∈ a, b ≠ 0
  start : a.head? ≠ some 32

/-- The kernel runs process `pid`: `cur_process_ptr` points to its control block and its page is the
user page. -/
structure ProcView.Runs (v : ProcView) (pid : Int) : Prop where
  curProcessPtr : v.proc.curProcessPtr = pcbAddr pid
  userPage : v.paging.DT userPdIndex = userPde (2 + pid).toNat

/-- The call is the `halt` of process `pid`. -/
def Halts (pid : Int) (s : Kernel) (c : Call) : Prop :=
  ∃ fr status, c = .halt fr status ∧ s.proc.curPid = pid

/-- `getargs` returns 0 and leaves exactly `a` in the buffer, followed by NULs. -/
def ReturnsArgs (s : Kernel) (buf n : BitVec 32) (a : List UInt8) : Prop :=
  ∃ s', s.getargs buf n = some (s', 0) ∧
    ∀ k < n.toNat, s'.load (buf.toNat + k) = some (a.getD k 0)

/-! ## The parser -/

section Parser

variable {stop : UInt8 → Bool} {w rest command word a : List UInt8}

/-- A word that fits is copied up to where it stops. -/
lemma fillCommand_word (buf : List UInt8) (go : ∀ b ∈ w, stop b = false)
    (fits : (buf ++ w).length ≤ 33) (ends : rest = [] ∨ ∃ c cs, rest = c :: cs ∧ stop c = true) :
    fillCommand stop buf (w ++ rest) = (buf ++ w, some rest) := by
  induction w generalizing buf with
  | nil =>
      rw [List.nil_append, List.append_nil]
      rcases ends with rfl | ⟨c, cs, rfl, hc⟩
      · rfl
      · rw [fillCommand, if_pos hc]
  | cons b w ih =>
      have more : (buf ++ [b]) ++ w = buf ++ b :: w := by rw [List.append_assoc]; rfl
      have room : ¬ (buf ++ [b]).length > fileNameLength + 1 := by
        rw [← more, List.length_append] at fits
        rw [fileNameLength]
        omega
      have step : ¬ stop b = true := by
        rw [go b List.mem_cons_self]
        decide
      rw [List.cons_append, fillCommand, if_neg step, if_neg room,
        ih (buf ++ [b]) (fun b' h => go b' (List.mem_cons_of_mem b h)) (more.symm ▸ fits), more]

/-- A word that does not fit is given up, with one byte too many stored. -/
lemma fillCommand_long (buf rest : List UInt8) (go : ∀ b ∈ w, stop b = false)
    (long : 33 < (buf ++ w).length) (start : buf.length ≤ 33) :
    (fillCommand stop buf (w ++ rest)).1.length = 34 ∧
      (fillCommand stop buf (w ++ rest)).2 = none := by
  induction w generalizing buf with
  | nil =>
      rw [List.append_nil] at long
      omega
  | cons b w ih =>
      have more : (buf ++ [b]) ++ w = buf ++ b :: w := by rw [List.append_assoc]; rfl
      have one : (buf ++ [b]).length = buf.length + 1 := List.length_append
      have step : ¬ stop b = true := by
        rw [go b List.mem_cons_self]
        decide
      rw [List.cons_append, fillCommand, if_neg step]
      split_ifs with full
      · rw [fileNameLength] at full
        have whole : (buf ++ [b]).length = 34 := by omega
        exact ⟨whole, rfl⟩
      · rw [fileNameLength] at full
        exact ih (buf ++ [b]) (fun b' h => go b' (List.mem_cons_of_mem b h))
          (more.symm ▸ long) (by omega)

/-- The first loop steps over spaces. -/
lemma dropWhile_spaces (i : Nat) (h : rest.head? ≠ some 32) :
    (List.replicate i 32 ++ rest).dropWhile (· = 32) = rest := by
  induction i with
  | zero =>
      cases rest with
      | nil => rfl
      | cons b rest =>
          have ne : b ≠ 32 := fun e => h (congrArg some e)
          exact List.dropWhile_cons_of_neg (by simpa using ne)
  | succ i ih => exact ih

/-- What the parser makes of a command line it accepts. -/
lemma parseCommand_line (line : CommandLine command word a)
    (ok : (parseCommand command).complete = true) :
    parseCommand command = ⟨word ++ [0], a ++ [0], true⟩ := by
  obtain ⟨⟨i, j, rfl, joined⟩, word_ne, hword, -, start⟩ := line
  obtain ⟨b, w, rfl⟩ := List.exists_cons_of_ne_nil word_ne
  have first : (b :: w ++ (List.replicate j 32 ++ a)).head? ≠ some 32 := by
    intro e
    exact (hword b List.mem_cons_self).1 (Option.some.inj e)
  have go (c : UInt8) (h : c ∈ b :: w) : decide (c = 32) = false := decide_eq_false (hword c h).1
  have ends : List.replicate j 32 ++ a = [] ∨
      ∃ c cs, List.replicate j 32 ++ a = c :: cs ∧ decide (c = (32 : UInt8)) = true := by
    cases j with
    | zero => exact .inl (joined rfl)
    | succ j => exact .inr ⟨32, List.replicate j 32 ++ a, rfl, rfl⟩
  have never (c : UInt8) (_ : c ∈ a) : (fun _ : UInt8 => false) c = false := rfl
  rw [parseCommand] at ok ⊢
  rw [dropWhile_spaces i first] at ok ⊢
  rcases Nat.lt_or_ge 33 (b :: w).length with long | fits
  · obtain ⟨-, gave_up⟩ := fillCommand_long [] (List.replicate j 32 ++ a) go long (Nat.zero_le 33)
    rw [← Prod.eta (fillCommand _ _ _), gave_up] at ok
    cases ok
  rw [fillCommand_word [] go fits ends] at ok ⊢
  dsimp only at ok ⊢
  rw [dropWhile_spaces j start] at ok ⊢
  rcases Nat.lt_or_ge 33 a.length with long | fits'
  · obtain ⟨-, gave_up⟩ := fillCommand_long [] [] never long (Nat.zero_le 33)
    rw [List.append_nil] at gave_up
    rw [← Prod.eta (fillCommand _ _ _), gave_up] at ok
    cases ok
  have whole := fillCommand_word [] never fits' (.inl rfl : ([] : List UInt8) = [] ∨ _)
  rw [List.append_nil] at whole
  rw [whole]
  rfl

end Parser

/-! ## The field of the control block -/

section Field

variable {s s' s₀ s₁ loaded : Kernel} {v v' : ProcView} {fr : Frame} {pid : Int}
variable {command word a : List UInt8}

/-- The control block of the process that starts gets the argument. -/
lemma arg_startProcess (fr : Frame) (hp : loaded.proc.newPid = pid) (arg : List UInt8) :
    ∃ old, ((loaded.startProcess fr arg).proc.pcb (pcbAddr pid)).arg
      = overlay old (strncpy (cstring arg) fileNameLength) := by
  have block : ((loaded.initializePCB.setArg arg).proc.pcb (pcbAddr pid)).arg
      = overlay (loaded.proc.pcb (pcbAddr pid)).arg (strncpy (cstring arg) fileNameLength) := by
    simp only [Kernel.setArg, Kernel.initializePCB, Proc.pcb, Proc.setPcb, Function.update_self, hp]
  have stack := pcb_startProcess fr loaded arg (pcbAddr pid)
  rw [PCB.SameButStack] at stack
  exact ⟨_, by rw [stack]; exact block⟩

/-- The argument of the control block of process `pid`. -/
def ProcView.arg (v : ProcView) (pid : Int) : Nat → UInt8 := (v.proc.pcb (pcbAddr pid)).arg

/-- Starting another process. -/
lemma Started.arg {p : Int} (st : Started v p v') (live : v.proc.pidCheck pid = 1) :
    v'.proc.pidCheck pid = 1 ∧ v'.arg pid = v.arg pid := by
  have ne : pid ≠ p := by
    rintro rfl
    rw [st.free] at live
    exact absurd live (by decide)
  have others := st.others (pcbAddr pid) (fun e => ne (pcbAddr_inj.mp e))
  rw [PCB.SameButStack] at others
  refine ⟨?_, ?_⟩
  · rw [st.pidCheck, Function.update_of_ne ne]
    exact live
  · rw [ProcView.arg, others]
    rfl

/-- A call that changes descriptors leaves the arguments. -/
lemma FdsChanged.arg (fds : FdsChanged v v') : v'.arg pid = v.arg pid := by
  obtain ⟨fa, e⟩ := fds.pcb (pcbAddr pid)
  rw [ProcView.arg, e]
  rfl

/-- Nothing but the end of a process takes its argument. -/
lemma arg_effect {c : Call} (eff : c.Effect v v') (live : v.proc.pidCheck pid = 1)
    (stays : ∀ fr status, c = .halt fr status → v.proc.curPid ≠ pid) :
    v'.proc.pidCheck pid = 1 ∧ v'.arg pid = v.arg pid := by
  cases c with
  | execute fr command =>
      rcases eff with rfl | ⟨p, st⟩
      · exact ⟨live, rfl⟩
      · exact st.arg live
  | halt fr status =>
      have ne : pid ≠ v.proc.curPid := Ne.symm (stays fr status rfl)
      rcases eff with ex | ⟨-, p, st⟩
      · obtain ⟨fa, e⟩ := ex.pcb (pcbAddr pid)
        refine ⟨?_, ?_⟩
        · rw [ex.pidCheck, Function.update_of_ne ne]
          exact live
        · rw [ProcView.arg, e]
          rfl
      · have vacated : v.vacate.proc.pidCheck pid = 1 := by
          show Function.update v.proc.pidCheck v.proc.curPid 0 pid = 1
          rw [Function.update_of_ne ne]
          exact live
        exact st.arg vacated
  | terminalSwitch fr t =>
      rcases eff with ⟨-, rfl⟩ | ⟨-, -, rfl⟩ | ⟨-, -, p, st⟩
      · exact ⟨live, rfl⟩
      · exact ⟨live, rfl⟩
      · have moved : (v.change t).proc.pidCheck pid = 1 := live
        exact st.arg moved
  | sysOpen fr filename => exact ⟨eff.pidCheck ▸ live, eff.arg⟩
  | sysClose i => exact ⟨eff.pidCheck ▸ live, eff.arg⟩
  | sysRead fd buf n => exact ⟨eff.pidCheck ▸ live, eff.arg⟩
  | sysWrite fd buf n => exact ⟨eff.pidCheck ▸ live, eff.arg⟩
  | getargs buf n => exact ⟨eff.pidCheck ▸ live, eff.arg⟩

/-- A command line holds no NUL. -/
lemma CommandLine.upToNul (line : CommandLine command word a) : upToNul command = command := by
  obtain ⟨⟨i, j, rfl, -⟩, -, hword, harg, -⟩ := line
  apply upToNul_of_nonzero
  intro b hb
  have space (n : Nat) (h : b ∈ List.replicate n (32 : UInt8)) : b ≠ 0 := by
    rw [(List.mem_replicate.mp h).2]
    decide
  rcases List.mem_append.mp hb with h | h
  · exact space i h
  rcases List.mem_append.mp h with h | h
  · exact (hword b h).2
  rcases List.mem_append.mp h with h | h
  · exact space j h
  · exact harg b h

/-- A process starts with the argument text in its control block, padded to the field's 32 bytes. -/
lemma arg_execute {eip : Nat} (line : CommandLine command word a)
    (start : s.execute fr (some command) = some (s₀, .user pid eip)) :
    a.length ≤ 32 ∧ s₀.proc.pidCheck pid = 1 ∧ ∀ k < 32, s₀.procView.arg pid k = a.getD k 0 := by
  obtain ⟨_, inode, loaded, ⟨⟩, fits, complete, -, -, load, rfl, -⟩ := execute_user start
  have st := started_execute start
  rw [line.upToNul] at complete fits start
  have parsed := parseCommand_line line complete
  rw [Parsed.overrun, parsed, fileNameLength, List.length_append, List.length_append,
    List.length_singleton] at fits
  refine ⟨by omega, ?_, fun k hk => ?_⟩
  · have live := st.pidCheck
    have live : (loaded.startProcess fr _).proc.pidCheck
      = Function.update s.proc.pidCheck pid 1 := live
    rw [live, Function.update_self]
  · obtain ⟨_, m, -, rfl⟩ := loadFile_some load
    rw [line.upToNul, parsed, upToNul_terminated line.arg]
    have new : ({ (s.allocate pid).setUpPaging with mem := m } : Kernel).proc.newPid = pid := rfl
    obtain ⟨old, e⟩ := arg_startProcess fr new a
    have length : (strncpy (cstring a) fileNameLength).length = 32 := length_strncpy ..
    have field : overlay old (strncpy (cstring a) fileNameLength) k = a.getD k 0 := by
      rw [overlay, List.getD_eq_getElem _ _ (by omega), ← List.getD_eq_getElem _ 0]
      exact strncpy_cstring line.arg hk
    exact (congrFun e k).trans field

/-- The argument stays while the process does not end. -/
lemma arg_runs {cs : List Call} (live : s₀.proc.pidCheck pid = 1)
    (alive : Meets Call.step (fun s c => ¬ Halts pid s c) s₀ cs)
    (run : runs Call.step s₀ cs = some s₁) :
    s₁.procView.arg pid = s₀.procView.arg pid := by
  let Inv (t : Kernel) : Prop := t.proc.pidCheck pid = 1 ∧ t.procView.arg pid = s₀.procView.arg pid
  have keep (t : Kernel) (c : Call) (t' : Kernel) (inv : Inv t) (stays : ¬ Halts pid t c)
      (step : Call.step t c = some t') : Inv t' ∧ Inv t' := by
    obtain ⟨live', same⟩ := inv
    have kept := arg_effect (Call.effect step) live' fun fr status e cur =>
      stays ⟨fr, status, e, cur⟩
    exact ⟨⟨kept.1, kept.2.trans same⟩, kept.1, kept.2.trans same⟩
  have all : Throughout Call.step Inv s₀ cs :=
    ⟨⟨live, rfl⟩, along_of_meets Inv keep ⟨live, rfl⟩ alive⟩
  exact (all.last run).2

/-- `getargs` copies the field. -/
lemma getargs_eq {buf n : BitVec 32} (h0 : 0 ≤ pid) (h6 : pid < 6) (current : s.procView.Runs pid)
    (page : InUserPage buf n) :
    let copied := strncpy (s.procView.arg pid) n.toNat
    s.getargs buf n = if s.procView.arg pid 0 = 10 then some (s, -1) else
      some ({ s with mem := s.mem.store (userFrame (2 + pid).toNat buf.toNat) copied }, 0) := by
  have ptr : s.proc.curProcessPtr = pcbAddr pid := current.curProcessPtr
  have mapped : s.paging.DT userPdIndex = userPde (2 + pid).toNat := current.userPage
  have kernelPtr : KernelPtr (pcbAddr pid) := by
    rw [KernelPtr, pcbAddr, endOfKernel, kernelStackSize]
    omega
  have field : (s.proc.pcb (pcbAddr pid)).arg = s.procView.arg pid := rfl
  rw [Kernel.getargs, Kernel.getargsResult, if_neg (not_not.mpr page.userBuffer), ptr,
    if_neg (not_not.mpr kernelPtr)]
  dsimp only
  rw [field]
  split_ifs with newline
  · rfl
  · have stop : buf.toNat + (strncpy (s.procView.arg pid) n.toNat).length ≤ userEnd := by
      rw [length_strncpy]
      exact page.2
    have stored := storeThrough_user mapped (by omega) (by omega) page.1 stop s.mem
    show (storeThrough s.paging s.mem buf.toNat (strncpy (s.procView.arg pid) n.toNat)).bind _ = _
    rw [stored]
    rfl

end Field

/-! ## The round trip -/

section RoundTrip

variable {s s₀ s₁ : Kernel} {fr : Frame} {pid : Int} {eip : Nat} {command word a : List UInt8}
variable {cs : List Call} {buf n : BitVec 32}

/-- An argument begins with a newline exactly when its field does. -/
lemma head_iff (arg : ∀ b ∈ a, b ≠ 0) : a.head? = some 10 ↔ a.getD 0 0 = 10 := by
  cases a with
  | nil => simp
  | cons b a => exact Option.some_inj

/-- What `getargs` copies of a field that holds `a`, padded to 32 bytes. -/
lemma copied_iff {field : Nat → UInt8} {n : Nat} (arg : ∀ b ∈ a, b ≠ 0) (le : a.length ≤ 32)
    (room : a.length < n) (holds : ∀ k < 32, field k = a.getD k 0) :
    (∀ k < n, (strncpy field n).getD k 0 = a.getD k 0) ↔ a.length < 32 ∨ field 32 = 0 := by
  have text (k : Nat) (hk : k < a.length) : field k ≠ 0 := by
    rw [holds k (by omega), List.getD_eq_getElem a 0 hk]
    exact arg _ (List.getElem_mem hk)
  constructor
  · intro copied
    by_contra behind
    rw [not_or] at behind
    obtain ⟨full, nonzero⟩ := behind
    have e := copied 32 (by omega)
    rw [strncpy_copied (fun j hj => ?_) (by omega), List.getD_eq_default a 0 (by omega)] at e
    · exact nonzero e
    · rcases Nat.eq_or_lt_of_le hj with rfl | lt
      · exact nonzero
      · exact text j (by omega)
  · intro ends k hk
    have zero : field a.length = 0 := by
      rcases Nat.lt_or_ge a.length 32 with short | full
      · rw [holds a.length short, List.getD_eq_default a 0 (Nat.le_refl _)]
      · have length : a.length = 32 := by omega
        rcases ends with short | zero
        · omega
        · rw [length]
          exact zero
    rcases Nat.lt_or_ge k a.length with inside | beyond
    · rw [strncpy_copied (fun j hj => text j (by omega)) hk, holds k (by omega)]
    · rw [strncpy_padded zero beyond, List.getD_eq_default a 0 beyond]

/-- **The argument comes back** exactly when it does not begin with a newline and is shorter than
the field of the control block, or the memory behind the block ends it. -/
theorem returnsArgs_iff (line : CommandLine command word a)
    (start : s.execute fr (some command) = some (s₀, .user pid eip))
    (run : runs Call.step s₀ cs = some s₁)
    (alive : Meets Call.step (fun s c => ¬ Halts pid s c) s₀ cs) (current : s₁.procView.Runs pid)
    (page : InUserPage buf n) (room : a.length < n.toNat) :
    ReturnsArgs s₁ buf n a ↔
      a.head? ≠ some 10 ∧ (a.length < 32 ∨ s₁.procView.arg pid 32 = 0) := by
  obtain ⟨le, live, field⟩ := arg_execute line start
  have st := started_execute start
  rw [← arg_runs live alive run] at field
  have call := getargs_eq st.nonneg st.below current page
  have first := field 0 (by decide)
  dsimp only at call
  rw [Ne, head_iff line.arg, ← first, ← copied_iff line.arg le room field]
  by_cases newline : s₁.procView.arg pid 0 = 10
  · rw [if_pos newline] at call
    constructor
    · rintro ⟨s', got, -⟩
      rw [call] at got
      exact absurd (Prod.mk.inj (Option.some.inj got)).2 (by decide)
    · rintro ⟨other, -⟩
      exact absurd newline other
  · rw [if_neg newline] at call
    have h0 := st.nonneg
    have h6 := st.below
    let copied := strncpy (s₁.procView.arg pid) n.toNat
    let returned := { s₁ with mem := s₁.mem.store (userFrame (2 + pid).toNat buf.toNat) copied }
    have loads (k : Nat) (hk : k < n.toNat) : returned.load (buf.toNat + k)
      = some (copied.getD k 0) :=
      have length : copied.length = n.toNat := length_strncpy ..
      load_stored current.userPage (by omega) (by omega) page (Nat.le_of_eq length)
        (length.symm ▸ hk)
    constructor
    · rintro ⟨s', got, bytes⟩
      rw [call] at got
      obtain ⟨rfl, -⟩ := Prod.mk.inj (Option.some.inj got)
      exact ⟨newline, fun k hk => Option.some.inj ((loads k hk).symm.trans (bytes k hk))⟩
    · rintro ⟨-, copied⟩
      exact ⟨returned, call, fun k hk => (loads k hk).trans (congrArg some (copied k hk))⟩

/-- The shell started as `shell hi` runs another shell and then reads its argument. -/
theorem returnsArgs_iff_sample : ∃ s₀ s₁ : Kernel,
    (Kernel.boot sampleBoot).execute sampleFrame
      (some (Kernel.shellCommand ++ bytesOf [' ', 'h', 'i'])) = some (s₀, .user 0 0x08048018) ∧
    runs Call.step s₀ [.execute sampleFrame (some Kernel.shellCommand), .halt sampleFrame 0]
      = some s₁ ∧
    ReturnsArgs s₁ 0x08048100 16 (bytesOf ['h', 'i']) := by
  have facts : ((Kernel.boot sampleBoot).execute sampleFrame
      (some (Kernel.shellCommand ++ bytesOf [' ', 'h', 'i']))).bind (fun r =>
        (Call.step r.1 (.execute sampleFrame (some Kernel.shellCommand))).bind fun t =>
        (Call.step t (.halt sampleFrame 0)).map fun s => (r.2, t.proc.curPid,
          decide (s.proc.curProcessPtr = pcbAddr 0), decide (s.paging.DT userPdIndex = userPde 2)))
      = some (.user 0 0x08048018, 1, true, true) := by decide +kernel
  obtain ⟨⟨s₀, c⟩, start, h⟩ := Option.bind_eq_some_iff.mp facts
  obtain ⟨t, child, h⟩ := Option.bind_eq_some_iff.mp h
  obtain ⟨s₁, back, e⟩ := Option.map_eq_some_iff.mp h
  simp only [Prod.mk.injEq, decide_eq_true_eq] at e
  obtain ⟨rfl, inner, ptr, frame⟩ := e
  have line : CommandLine (Kernel.shellCommand ++ bytesOf [' ', 'h', 'i']) Kernel.shellCommand
      (bytesOf ['h', 'i']) :=
    { parts := ⟨0, 1, rfl, fun h => absurd h (by decide)⟩
      word_ne := by decide
      word := List.all_iff_forall_prop.mp (by decide)
      arg := List.all_iff_forall_prop.mp (by decide)
      start := by decide }
  have run : runs Call.step s₀ [.execute sampleFrame (some Kernel.shellCommand),
      .halt sampleFrame 0] = some s₁ := by
    simp only [runs_cons, runs_nil, child, back, Option.bind_some]
  have alive : Meets Call.step (fun s c => ¬ Halts 0 s c) s₀
      [.execute sampleFrame (some Kernel.shellCommand), .halt sampleFrame 0] := by
    refine .cons ?_ child (.cons ?_ back trivial)
    · rintro ⟨_, _, ⟨⟩, -⟩
    · rintro ⟨_, _, -, same⟩
      exact absurd (inner.symm.trans same) (by decide)
  exact ⟨s₀, s₁, start, run, (returnsArgs_iff line start run alive ⟨ptr, frame⟩
    ⟨by decide, by decide⟩ (by decide)).mpr ⟨by decide, Or.inl (by decide)⟩⟩

/-- The small machine with other bytes in the memory behind the control blocks. -/
def staleBoot : BootInfo :=
  { sampleBoot with pcbs := fun pid => { sampleBoot.pcbs pid with arg := fun _ => 1 } }

/-- An argument of 32 letters runs on into the memory behind the control block. -/
theorem not_always_returnsArgs : ¬ ∀ (s s₀ s₁ : Kernel) (fr : Frame) (pid : Int) (eip : Nat)
    (command word a : List UInt8) (cs : List Call) (buf n : BitVec 32), CommandLine command word a →
    s.execute fr (some command) = some (s₀, .user pid eip) → runs Call.step s₀ cs = some s₁ →
    Meets Call.step (fun s c => ¬ Halts pid s c) s₀ cs → s₁.procView.Runs pid →
    InUserPage buf n → a.length < n.toNat → n.toNat ≤ 1024 → ReturnsArgs s₁ buf n a := by
  intro claim
  let command := Kernel.shellCommand ++ 32 :: List.replicate 32 97
  have facts : ((Kernel.boot staleBoot).execute sampleFrame (some command)).map (fun r =>
        (r.2, decide (r.1.proc.curProcessPtr = pcbAddr 0),
          decide (r.1.paging.DT userPdIndex = userPde 2),
          (r.1.getargs 0x08048100 64).bind fun g => g.1.load 0x08048120))
      = some (.user 0 0x08048018, true, true, some 1) := by decide +kernel
  obtain ⟨⟨s, c⟩, start, e⟩ := Option.map_eq_some_iff.mp facts
  simp only [Prod.mk.injEq, decide_eq_true_eq] at e
  obtain ⟨rfl, ptr, frame, behind⟩ := e
  have line : CommandLine command Kernel.shellCommand (List.replicate 32 97) :=
    { parts := ⟨0, 1, rfl, fun h => absurd h (by decide)⟩
      word_ne := by decide
      word := List.all_iff_forall_prop.mp (by decide)
      arg := List.all_iff_forall_prop.mp (by decide)
      start := by decide }
  obtain ⟨s', got, bytes⟩ := claim _ s s _ 0 _ command _ _ [] 0x08048100 64 line start rfl along_nil
    ⟨ptr, frame⟩ ⟨by decide, by decide⟩ (by decide) (by decide)
  have byte := bytes 32 (by decide)
  rw [got, Option.bind_some] at behind
  exact absurd (behind.symm.trans byte) (by decide)

end RoundTrip

end Kernel391
