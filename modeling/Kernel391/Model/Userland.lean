import Kernel391.Base.Programs
import Kernel391.Model.Strings

/-!
# User programs

The programs of `syscalls` and the functions of `ece391support.c` they share. A local array is the
list of its bytes, and a pointer into it the bytes from there to the end of the array; an access
behind the end is a step a program may not make. A pointer given to a system call is given with the
bytes the call may read through it, and the answer has the bytes the call stored through it. What an
array holds before its first use is a parameter.
-/

namespace Kernel391.User
open Base

/-- The calls of `ece391syscall.h`; `number` is a trap with a number in `eax` of the program's
own. -/
inductive Syscall where
  | execute (command : List UInt8)
  | read (fd : Int) (nbytes : Nat)
  | write (fd : Int) (buf : List UInt8)
  | open (filename : List UInt8)
  | close (fd : Int)
  | getargs (nbytes : Nat)
  | vidmap (screenStart : Nat)
  | number (eax : Int)

/-- What a call returns, and the bytes it stored from the start of the buffer on. -/
structure Answer where
  ret : Int
  stored : List UInt8

/-- A user program. -/
abbrev Prog (α : Type) := Program Syscall Answer α

export Program (perform need loop)

/-! ## `ece391support.c` -/

/-- A string literal. -/
def lit (s : String) : List UInt8 := bytesOf s.toList ++ [0]

/-- The array with `bs` from index `o` on. -/
def storeAt (buf : List UInt8) (o : Nat) (bs : List UInt8) : List UInt8 :=
  buf.take o ++ bs ++ buf.drop (o + bs.length)

/-- The same, for an array with room for them. -/
def store (buf : List UInt8) (o : Nat) (bs : List UInt8) : Option (List UInt8) :=
  if o + bs.length ≤ buf.length then some (storeAt buf o bs) else none

/-- The first `n` bytes of an array. -/
def front (buf : List UInt8) (n : Nat) : Option (List UInt8) :=
  if n ≤ buf.length then some (buf.take n) else none

/-- `ece391_strlen`. -/
def ece391Strlen : List UInt8 → Option Nat
  | [] => none
  | c :: s => if c = 0 then some 0 else (ece391Strlen s).map (· + 1)

/-- `ece391_strcpy` within one array, from index `src` to index `dst`, with `n` bytes left behind
`src`. -/
def ece391Strcpy : (n : Nat) → List UInt8 → (dst src : Nat) → Option (List UInt8)
  | 0, _, _, _ => none
  | n + 1, buf, dst, src =>
    match buf[src]? with
    | none => none
    | some c =>
      if c = 0 then some (buf.set dst c) else ece391Strcpy n (buf.set dst c) (dst + 1) (src + 1)

/-- `ece391_fdputs`. -/
def ece391Fdputs (fd : Int) (s : List UInt8) : Prog Unit := do
  let len ← need (ece391Strlen s)
  let _ ← perform (.write fd (s.take len))

/-- `ece391_strncmp`. -/
def ece391Strncmp : (s1 s2 : List UInt8) → (n : Nat) → Option Int
  | _, _, 0 => some 0
  | a :: s1, b :: s2, n + 1 =>
    if a = b then if a = 0 ∨ n = 0 then some 0 else ece391Strncmp s1 s2 n
    else some ((a.toNat : Int) - b.toNat)
  | _, _, _ => none

/-! ## Programs that show files -/

/-- One pass of the loop of `ece391cat.c`. -/
def catChunk (fd : Int) (buf : List UInt8) : Prog (List UInt8 ⊕ Int) := do
  let r ← perform (.read fd 1024)
  let buf ← need (store buf 0 r.stored)
  if r.ret = 0 then return .inr 0
  if r.ret = -1 then
    ece391Fdputs 1 (lit "file read failed\n")
    return .inr 3
  let w ← perform (.write 1 (← need (front buf r.ret.toNat)))
  if w.ret = -1 then return .inr 3
  return .inl buf

/-- `main` of `ece391cat.c`. -/
def cat (n : Nat) (buf : List UInt8) : Prog Int := do
  let args ← perform (.getargs 1024)
  let buf ← need (store buf 0 args.stored)
  if args.ret ≠ 0 then
    ece391Fdputs 1 (lit "could not read arguments\n")
    return 3
  let fd := (← perform (.open buf)).ret
  if fd = -1 then
    ece391Fdputs 1 (lit "file not found\n")
    return 2
  loop (catChunk fd) n buf

/-- One pass of the loop of `ece391ls.c`. -/
def lsEntry (fd : Int) (buf : List UInt8) : Prog (List UInt8 ⊕ Int) := do
  let r ← perform (.read fd 32)
  let buf ← need (store buf 0 r.stored)
  if r.ret = 0 then return .inr 0
  if r.ret = -1 then
    ece391Fdputs 1 (lit "directory entry read failed\n")
    return .inr 3
  let buf ← need (store buf r.ret.toNat [10])
  let w ← perform (.write 1 (← need (front buf (r.ret.toNat + 1))))
  if w.ret = -1 then return .inr 3
  return .inl buf

/-- `main` of `ece391ls.c`. -/
def ls (n : Nat) (buf : List UInt8) : Prog Int := do
  let fd := (← perform (.open (lit "."))).ret
  if fd = -1 then
    ece391Fdputs 1 (lit "directory open failed\n")
    return 2
  loop (lsEntry fd) n buf

/-! ## `ece391grep.c` -/

/-- `BUFSIZE`. -/
def bufsize : Nat := 1024

/-- The loop that looks for the end of a line: at most `n` bytes from `lineEnd` on. -/
def findEnd (data : List UInt8) : (n lineEnd : Nat) → Option Nat
  | 0, lineEnd => some lineEnd
  | n + 1, lineEnd =>
    match data[lineEnd]? with
    | none => none
    | some c => if c ≠ 10 then findEnd data n (lineEnd + 1) else some lineEnd

/-- The loop over the places of a line, `n` of them from `check` on: whether it prints the line. -/
def searchLine (s : List UInt8) (sLen : Nat) (data : List UInt8) : (n check : Nat) → Option Bool
  | 0, _ => some false
  | n + 1, check =>
    match s[0]?, data[check]? with
    | some a, some b =>
      if a = b then
        match ece391Strncmp (data.drop check) s sLen with
        | none => none
        | some r => if r = 0 then some true else searchLine s sLen data n (check + 1)
      else searchLine s sLen data n (check + 1)
    | _, _ => none

/-- The search of a line of `n` bytes from `lineStart` on. -/
def putIfFound (s : List UInt8) (sLen : Nat) (fname data : List UInt8) (n lineStart : Nat) :
    Prog Unit := do
  if ← need (searchLine s sLen data n lineStart) then
    ece391Fdputs 1 fname
    ece391Fdputs 1 (lit ":")
    ece391Fdputs 1 (data.drop lineStart)
    ece391Fdputs 1 (lit "\n")

/-- The variables of `do_one_file` between two reads. -/
structure Lines where
  data : List UInt8
  last : Nat

/-- One pass of the inner loop of `do_one_file`. -/
def nextLine (s : List UInt8) (sLen : Nat) (fname : List UInt8) (cnt : Int) (x : Lines × Nat) :
    Prog ((Lines × Nat) ⊕ Lines) := do
  let ⟨⟨data, last⟩, lineStart⟩ := x
  let lineEnd ← need (findEnd data (last - lineStart) lineStart)
  if (← need data[lineEnd]?) ≠ 10 ∧ cnt ≠ 0 ∧ lineStart ≠ 0 then
    -- copy from line_start to last down to 0 and fix last
    let data ← need (store data lineEnd [0])
    let data ← need (ece391Strcpy data.length data 0 lineStart)
    return .inr ⟨data, last - lineStart⟩
  -- search the line
  let data ← need (store data lineEnd [0])
  putIfFound s sLen fname data (lineEnd - lineStart) lineStart
  let lineStart := lineEnd + 1
  if lineStart ≥ last then return .inr ⟨data, 0⟩
  return .inl (⟨data, last⟩, lineStart)

/-- One pass of the outer loop of `do_one_file`. -/
def nextChunk (s : List UInt8) (sLen : Nat) (fname : List UInt8) (fd : Int) (x : Lines) :
    Prog (Lines ⊕ Int) := do
  let r ← perform (.read fd (bufsize - x.last))
  if r.ret = -1 then
    ece391Fdputs 1 (lit "file read failed\n")
    return .inr (-1)
  let data ← need (store x.data x.last r.stored)
  let x ← loop (nextLine s sLen fname r.ret) (bufsize + 2) (⟨data, x.last + r.ret.toNat⟩, 0)
  if r.ret = 0 then return .inr 0
  return .inl x

/-- `do_one_file`, with `data` in its array at first. -/
def doOneFile (n : Nat) (data s fname : List UInt8) : Prog Int := do
  let sLen ← need (ece391Strlen s)
  let fd := (← perform (.open fname)).ret
  if fd = -1 then
    ece391Fdputs 1 (lit "file open failed\n")
    return -1
  let r ← loop (nextChunk s sLen fname fd) n ⟨data, 0⟩
  if r ≠ 0 then return r
  let c ← perform (.close fd)
  if c.ret = -1 then
    ece391Fdputs 1 (lit "file close failed\n")
    return -1
  return 0

/-- One pass of the loop of `ece391grep.c` over the directory. -/
def grepEntry (n : Nat) (data : List UInt8 → List UInt8) (search : List UInt8) (fd : Int)
    (buf : List UInt8) :
    Prog (List UInt8 ⊕ Int) := do
  let r ← perform (.read fd 32)
  let buf ← need (store buf 0 r.stored)
  if r.ret = 0 then return .inr 0
  if r.ret = -1 then
    ece391Fdputs 1 (lit "directory entry read failed\n")
    return .inr 3
  -- a directory
  if (← need buf[0]?) = 46 then return .inl buf
  let buf ← need (store buf r.ret.toNat [0])
  let one ← doOneFile n (data buf) search buf
  if one ≠ 0 then return .inr 3
  return .inl buf

/-- `main` of `ece391grep.c`; `data` is what the array of `do_one_file` holds when a file is
searched. -/
def grep (n : Nat) (data : List UInt8 → List UInt8) (buf search : List UInt8) : Prog Int := do
  let args ← perform (.getargs bufsize)
  let search ← need (store search 0 args.stored)
  if args.ret ≠ 0 then
    ece391Fdputs 1 (lit "could not read argument\n")
    return 3
  let fd := (← perform (.open (lit "."))).ret
  if fd = -1 then
    ece391Fdputs 1 (lit "directory open failed\n")
    return 2
  loop (grepEntry n data search fd) n buf

end Kernel391.User
