import Kernel391.Model.Console

/-!
# Starting a program

`execute` and `initialize_PCB` of `scall.c`, cut at the numbered comments of the source. A step that
cannot complete (a page fault, whose handler never returns, or a store outside a local buffer, after
which the C program has no defined behaviour) gives `none`. Directory entries that are no files may
have any inode number, so what `execute` reads of the image goes through the page tables.
-/

namespace Kernel391
open Base

/-- The loop that fills `file_command` or `arg_command`: it copies bytes until `stop` holds or the
command ends, and gives up after 34 of them. The bytes copied, and the rest of the command unless it
gave up. -/
def fillCommand (stop : UInt8 → Bool) : (buf rest : List UInt8) → List UInt8 × Option (List UInt8)
  | buf, [] => (buf, some [])
  | buf, c :: cs =>
    if stop c then (buf, some (c :: cs))
    -- the bound is checked after the store, and is one too large for the buffer
    else if (buf ++ [c]).length > fileNameLength + 1 then (buf ++ [c], none)
    else fillCommand stop (buf ++ [c]) cs

/-- What the parser of `execute` leaves in its two buffers, terminators included, as far as it gets;
`complete` is false when it returned `FAIL`. -/
structure Parsed where
  fileCommand : List UInt8
  argCommand : List UInt8
  complete : Bool

/-- `1 - parse argument`. -/
def parseCommand (command : List UInt8) : Parsed :=
  let command := command.dropWhile (· = 32)
  match fillCommand (· = 32) [] command with
  | (file, none) => ⟨file, [], false⟩
  | (file, some rest) =>
    match fillCommand (fun _ => false) [] (rest.dropWhile (· = 32)) with
    | (arg, none) => ⟨file ++ [0], arg, false⟩
    | (arg, some _) => ⟨file ++ [0], arg ++ [0], true⟩

/-- The parser stored outside one of the two buffers, which have 33 bytes each. -/
def Parsed.overrun (p : Parsed) : Prop :=
  p.fileCommand.length > fileNameLength + 1 ∨ p.argCommand.length > fileNameLength + 1

/-- Whether the parser overran its locals can be read from its result. -/
instance (p : Parsed) : Decidable p.overrun := inferInstanceAs (Decidable (_ ∨ _))

/-- The bytes of a local buffer that held `old` after `bs` were stored at its start. -/
def overlay (old : Nat → UInt8) (bs : List UInt8) : Nat → UInt8 := fun k => bs.getD k (old k)

/-- The bytes of a local `dentry_t` that held `old` after the stores of a lookup; `none` when one of
them falls outside its 64 bytes. -/
def localDentry (old : Nat → UInt8) (st : Stores) : Option (Nat → UInt8) :=
  if st.all (fun ob => ob.1 < 64) then
    some (st.foldl (fun d ob => Function.update d ob.1 ob.2) old)
  else none

/-- `file_type` of a local record. -/
def dentryFileType (d : Nat → UInt8) : Nat := Mem.word d 32

/-- `inode_index` of a local record. -/
def dentryInodeIndex (d : Nat → UInt8) : Nat := Mem.word d 36

/-- `EXE_CHECK1` to `EXE_CHECK4` against `data_buf`. -/
def exeCheck (dataBuf : Nat → UInt8) : Bool :=
  dataBuf 0 == 0x7F && dataBuf 1 == 0x45 && dataBuf 2 == 0x4C && dataBuf 3 == 0x46

namespace Kernel

/-- `read_dentry_by_name`, its reads made through the page tables: one that faults never returns. -/
def mappedDentryByName (s : Kernel) (fname : List UInt8) : Option (Int × Stores) :=
  if s.paging.Mapped (nameReads s.linear s.fs fname) then readDentryByName s.linear s.fs fname
  else none

/-- `read_data`, its reads made through the page tables. -/
def mappedData (s : Kernel) (inode offset length : Nat) : Option (Int × List UInt8) :=
  if s.paging.Mapped (dataReads s.linear s.fs inode offset length) then
    some (readData s.linear s.fs inode offset length)
  else none

/-- `2 - check file validity`: the inode of the executable the word `file_command` names. -/
def checkFile (fr : Frame) (s : Kernel) (fileCommand : List UInt8) : Option (Option Nat) :=
  match s.mappedDentryByName fileCommand with
  | none => none
  | some (ret, st) =>
    if ret = -1 then some none
    else
      match localDentry fr.dentry st with
      | none => none
      | some checkDentry =>
        let inode := dentryInodeIndex checkDentry
        (s.mappedData inode 0 4).map fun r =>
          if r.1 = -1 then none
          else if exeCheck (overlay fr.dataBuf r.2) then some inode else none

/-- The lowest process identifier that is free. -/
def freePid (s : Kernel) : Option Int :=
  ((List.range maxProcessNumber).find? fun (i : Nat) => s.proc.pidCheck i == 0).map Int.ofNat

/-- `Process allocate` for the slot `pid`. -/
def allocate (s : Kernel) (pid : Int) : Kernel :=
  { s with
    proc := { s.proc with pidCheck := Function.update s.proc.pidCheck pid 1, newPid := pid } }

/-- `3 - set up paging` for the process `new_pid`. -/
def setUpPaging (s : Kernel) : Kernel :=
  { s with paging := s.paging.mapUserPage (2 + s.proc.newPid).toNat }

/-- `4 - load file into memory`. The result of `read_data` is not looked at. -/
def loadFile (s : Kernel) (inode : Nat) : Option Kernel := do
  let r ← s.mappedData inode 0 userStackSize
  let m ← storeThrough s.paging s.mem userPaddr r.2
  return { s with mem := m }

/-- The descriptors a process starts with: 0 and 1 open on the terminal, the rest as free slots of
whatever the control block held before. -/
def initFdArray (old : Nat → FdArray) : Nat → FdArray := fun i =>
  if i < 2 then { fileotPointer := 3, inode := 0, position := 0, flags := 1 }
  else if i < 8 then { old i with flags := 0 } else old i

/-- `initialize_PCB`; the address of a descriptor array is never `NULL`, so it cannot fail. -/
def initializePCB (s : Kernel) : Kernel :=
  let pid := s.proc.newPid
  let a := pcbAddr pid
  let old := s.proc.pcb a
  let parentPid := if s.term.current.currentProcessId = -1 then -1 else s.proc.curPid
  let curPrc : PCB :=
    { old with
      pid
      parentPid
      fdArray := initFdArray old.fdArray
      tssEsp0 := a + kernelStackSize - 4 }
  { s with
    proc :=
      { s.proc.setPcb a curPrc with filedArray := a, curProcessPtr := a, curPid := pid }
    term := s.term.setTerminal s.term.currentTerminalId
      { s.term.current with currentProcessId := pid } }

/-- `strncpy(cur_process_ptr->arg, arg_command, FILE_NAME_LENGTH)`. -/
def setArg (s : Kernel) (arg : List UInt8) : Kernel :=
  let b := s.proc.pcb s.proc.curProcessPtr
  let b := { b with arg := overlay b.arg (strncpy (cstring arg) fileNameLength) }
  { s with proc := s.proc.setPcb s.proc.curProcessPtr b }

/-- The parent, if any, keeps the stack registers for `halt` to return to. -/
def saveParent (fr : Frame) (s : Kernel) : Kernel :=
  let parentPid := (s.proc.pcb s.proc.curProcessPtr).parentPid
  if parentPid ≠ -1 then
    let a := pcbAddr parentPid
    let b := { s.proc.pcb a with scheduledEsp := fr.esp, scheduledEbp := fr.ebp }
    { s with proc := s.proc.setPcb a b }
  else s

/-- The context switch of `execute` sets the kernel stack of the new process. -/
def setTss (s : Kernel) : Kernel :=
  { s with tss := { esp0 := (s.proc.pcb s.proc.curProcessPtr).tssEsp0, ss0 := kernelDs } }

/-- `5 - create PCBs` and `6 - prepare for context switch`. -/
def startProcess (fr : Frame) (s : Kernel) (arg : List UInt8) : Kernel :=
  ((s.initializePCB.setArg arg).saveParent fr).setTss

/-- `execute`. When it starts a program it does not return: the result is the fresh process and the
entry address read from the loaded file. -/
def execute (fr : Frame) (s : Kernel) (command : Option (List UInt8)) : Option (Kernel × Control) :=
  match command with
  | none =>
    -- the length of a null string is taken before the check, through page 0
    if (s.paging.translate 0).isNone then none
    else some (s.puts (bytesOf "No command now \n".toList), .ret (-1))
  | some command =>
    let p := parseCommand (upToNul command)
    if p.overrun then none
    else if p.complete = false then some (s, .ret (-1))
    else
      match s.checkFile fr (upToNul p.fileCommand) with
      | none => none
      | some none => some (s, .ret (-1))
      | some (some inode) =>
        match s.freePid with
        | none => some (s.puts (bytesOf "No more process avaliable now !\n".toList), .ret (-1))
        | some pid => do
          let loaded ← (s.allocate pid).setUpPaging.loadFile inode
          let started := loaded.startProcess fr (upToNul p.argCommand)
          let eip ← started.loadWord (userPaddr + 24)
          return (started, .user pid eip)

/-- The command `shell`. -/
def shellCommand : List UInt8 := bytesOf ['s', 'h', 'e', 'l', 'l']

end Kernel

end Kernel391
