import Kernel391.Model.Keyboard
import Kernel391.Process.Calls
import Kernel391.Terminal.Display

/-!
# Keys

What a scancode means under the modifiers (`Mods.key`), and what each key does (`Kernel.press`):
`handle_keyboard_irq` is the two together. A key works on the current terminal only (`WorksHere`),
and on its line buffers as a line editor would (`Line.press`).
-/

namespace Kernel391
open Base

/-- What a key press or release means. -/
inductive Key where
  | mods (md : Mods)
  | backspace
  | tab
  | switch (t : Fin 3)
  | clear
  | enter
  | type (c : UInt8)
  | ignored
  deriving DecidableEq

/-- The key a scancode stands for that is not special. -/
def Mods.charKey (md : Mods) (scancode : UInt8) : Key :=
  if scancode < 58 then
    let keyPressed := scancodeChar scancode md.keyMode
    if md.ctrlPressed ∧ (keyPressed = 76 ∨ keyPressed = 108) then .clear
    else if keyPressed = 10 then .enter
    else .type keyPressed
  else .ignored

/-- The key a scancode stands for under the modifiers. -/
def Mods.key (md : Mods) (scancode : UInt8) : Key :=
  if scancode = 0x3A then .mods { md with capslockState := !md.capslockState }
  else if scancode = 0xBA then .ignored
  else if scancode = 0x2A ∨ scancode = 0x36 then .mods { md with shiftPressed := true }
  else if scancode = 0xAA ∨ scancode = 0xB6 then .mods { md with shiftPressed := false }
  else if scancode = 0x38 then .mods { md with altPressed := true }
  else if scancode = 0xB8 then .mods { md with altPressed := false }
  else if scancode = 0x1D then .mods { md with ctrlPressed := true }
  else if scancode = 0x9D then .mods { md with ctrlPressed := false }
  else if scancode = 0x0E then .backspace
  else if scancode = 0x0F then .tab
  else if scancode = 0x3B then if md.altPressed then .switch 0 else .ignored
  else if scancode = 0x3C then if md.altPressed then .switch 1 else .ignored
  else if scancode = 0x3D then if md.altPressed then .switch 2 else .ignored
  else md.charKey scancode

/-- The scancodes below 58 that are not those of characters. -/
def specialKeys : List UInt8 := [0x0E, 0x0F, 0x1D, 0x2A, 0x36, 0x38]

/-- A character at the end of the line, if there is room for it. -/
def Kernel.typeChar (s : Kernel) (c : UInt8) : Kernel :=
  if s.kbd.bufferPosition < Kernel.maxBufferSize then
    let s := s.putBuffer c
    { s with kbd.bufferPosition := s.kbd.bufferPosition + 1 }.putc c
  else s

/-- What a key that is no switch does. -/
def Kernel.press (s : Kernel) : Key → Kernel
  | .mods md => { s with kbd.mods := md }
  | .backspace =>
    if s.kbd.bufferPosition > 0 then
      { s with kbd.bufferPosition := s.kbd.bufferPosition - 1 }.backspaceHandler
    else s
  | .tab => (((s.typeChar 32).typeChar 32).typeChar 32).typeChar 32
  | .switch _ => s
  | .clear => s.cleanScreen.cleanBuffer
  | .enter => (s.putBuffer 10).putc 10
  | .type c => s.typeChar c
  | .ignored => s

/-- What a key does, a switch included. -/
def Kernel.act (fr : Frame) (s : Kernel) : Key → Option Kernel
  | .switch t => (s.terminalSwitch fr t).map Prod.fst
  | k => some (s.press k)

/-- The rest of the interrupt handler after `handle_special_key`. -/
def Kernel.afterSpecial (scancode : UInt8) : Option (Kernel × Bool) → Option Kernel
  | none => none
  | some (s, true) => some s
  | some (s, false) => some (s.handleCharacter scancode)

section Decoding

variable {s : Kernel} {fr : Frame} {md : Mods} {scancode c : UInt8}

/-- A key that is not special does what it means, and it is no switch. -/
lemma handleCharacter_eq (s : Kernel) (scancode : UInt8) :
    s.handleCharacter scancode = s.press (s.kbd.mods.charKey scancode) ∧
      ∀ t, s.kbd.mods.charKey scancode ≠ .switch t := by
  rw [Kernel.handleCharacter, Mods.charKey]
  dsimp only
  by_cases h58 : scancode < 58
  case neg =>
    rw [if_neg h58, if_neg h58]
    exact ⟨rfl, fun t e => Key.noConfusion e⟩
  rw [if_pos h58, if_pos h58]
  by_cases hc : s.kbd.mods.ctrlPressed = true ∧ (scancodeChar scancode s.kbd.mods.keyMode = 76
      ∨ scancodeChar scancode s.kbd.mods.keyMode = 108)
  · rw [if_pos hc, if_pos hc]
    exact ⟨rfl, fun t e => Key.noConfusion e⟩
  rw [if_neg hc, if_neg hc]
  by_cases he : scancodeChar scancode s.kbd.mods.keyMode = 10
  · rw [if_pos he, if_pos he, he]
    exact ⟨rfl, fun t e => Key.noConfusion e⟩
  rw [if_neg he, if_neg he]
  exact ⟨rfl, fun t e => Key.noConfusion e⟩

/-- A key that does not switch is pressed. -/
lemma act_of_press {k : Key} (h : ∀ t, k ≠ .switch t) : s.act fr k = some (s.press k) := by
  cases k with
  | switch t => exact absurd rfl (h t)
  | _ => rfl

/-- A test of `handle_special_key` is one of `Mods.key`. -/
lemma Kernel.afterSpecial_ite {p : Prop} [Decidable p] {a b : Option (Kernel × Bool)} {k k' : Key}
    (yes : p → Kernel.afterSpecial scancode a = s.act fr k)
    (no : Kernel.afterSpecial scancode b = s.act fr k') :
    Kernel.afterSpecial scancode (if p then a else b) = s.act fr (if p then k else k') := by
  split_ifs with h
  · exact yes h
  · exact no

/-- A function key switches terminals with Alt, and does nothing without. -/
lemma afterSpecial_functionKey (t : Fin 3) :
    Kernel.afterSpecial scancode ((s.functionKey fr t).map (·, true))
      = s.act fr (if s.kbd.mods.altPressed then .switch t else .ignored) := by
  rw [Kernel.functionKey]
  cases s.kbd.mods.altPressed with
  | false => rfl
  | true =>
      show Kernel.afterSpecial scancode (((s.terminalSwitch fr t).map Prod.fst).map (·, true))
        = (s.terminalSwitch fr t).map Prod.fst
      cases s.terminalSwitch fr t <;> rfl

/-- The interrupt handler decodes the scancode and does what the key means. -/
theorem handleKeyboardIrq_eq (fr : Frame) (s : Kernel) (scancode : UInt8) :
    s.handleKeyboardIrq fr scancode = s.act fr (s.kbd.mods.key scancode) := by
  show Kernel.afterSpecial scancode (s.handleSpecialKey fr scancode) = _
  rw [Kernel.handleSpecialKey, Mods.key]
  -- the modifiers
  iterate 8 refine Kernel.afterSpecial_ite (fun _ => rfl) ?_
  -- backspace, tab and the function keys
  refine Kernel.afterSpecial_ite (fun _ => ?_) ?_
  · show _ = some (if s.kbd.bufferPosition > 0 then
      { s with kbd.bufferPosition := s.kbd.bufferPosition - 1 }.backspaceHandler else s)
    split_ifs <;> rfl
  refine Kernel.afterSpecial_ite (fun _ => rfl) ?_
  refine Kernel.afterSpecial_ite (fun _ => afterSpecial_functionKey 0) ?_
  refine Kernel.afterSpecial_ite (fun _ => afterSpecial_functionKey 1) ?_
  refine Kernel.afterSpecial_ite (fun _ => afterSpecial_functionKey 2) ?_
  obtain ⟨e, ne⟩ := handleCharacter_eq s scancode
  show some (s.handleCharacter scancode) = _
  rw [e, act_of_press ne]

/-- Everything a keyboard interrupt can do: switch terminals, or do what its key means here. -/
lemma handleKeyboardIrq_cases {s' : Kernel} (run : s.handleKeyboardIrq fr scancode = some s') :
    (∃ u c, s.kbd.mods.key scancode = .switch u ∧ s.terminalSwitch fr u = some (s', c)) ∨
    ((∀ u, s.kbd.mods.key scancode ≠ .switch u) ∧ s' = s.press (s.kbd.mods.key scancode)) := by
  rw [handleKeyboardIrq_eq] at run
  cases hk : s.kbd.mods.key scancode with
  | switch u =>
      rw [hk] at run
      obtain ⟨c, switch⟩ := map_fst_eq_some run
      exact .inl ⟨u, c, rfl, switch⟩
  | _ =>
      rw [hk] at run
      exact .inr ⟨fun _ => Key.noConfusion, (Option.some.inj run).symm⟩

/-- Which branch a key comes from. -/
lemma Key.of_ite {p : Prop} [Decidable p] {k k' r : Key} (ne : k ≠ r)
    (h : (if p then k else k') = r) : ¬ p ∧ k' = r := by
  split_ifs at h with hp
  · exact absurd h ne
  · exact ⟨hp, h⟩

/-- A typed character comes from `scancode_map`, by a key that is not special, and is never a
newline. -/
lemma Mods.key_type (h : md.key scancode = .type c) :
    scancode < 58 ∧ scancode ∉ specialKeys ∧ c = scancodeChar scancode md.keyMode ∧ c ≠ 10 := by
  have char (h : md.charKey scancode = .type c) :
      scancode < 58 ∧ c = scancodeChar scancode md.keyMode ∧ c ≠ 10 := by
    rw [Mods.charKey] at h
    dsimp only at h
    split_ifs at h with low _ hn
    obtain rfl := Key.type.inj h
    exact ⟨low, rfl, hn⟩
  have switch (t : Fin 3) : (if md.altPressed then Key.switch t else .ignored) ≠ .type c := by
    split_ifs <;> exact Key.noConfusion
  rw [Mods.key] at h
  obtain ⟨-, h⟩ := Key.of_ite Key.noConfusion h
  obtain ⟨-, h⟩ := Key.of_ite Key.noConfusion h
  obtain ⟨shift, h⟩ := Key.of_ite Key.noConfusion h
  obtain ⟨-, h⟩ := Key.of_ite Key.noConfusion h
  obtain ⟨alt, h⟩ := Key.of_ite Key.noConfusion h
  obtain ⟨-, h⟩ := Key.of_ite Key.noConfusion h
  obtain ⟨ctrl, h⟩ := Key.of_ite Key.noConfusion h
  obtain ⟨-, h⟩ := Key.of_ite Key.noConfusion h
  obtain ⟨backspace, h⟩ := Key.of_ite Key.noConfusion h
  obtain ⟨tab, h⟩ := Key.of_ite Key.noConfusion h
  obtain ⟨-, h⟩ := Key.of_ite (switch 0) h
  obtain ⟨-, h⟩ := Key.of_ite (switch 1) h
  obtain ⟨-, h⟩ := Key.of_ite (switch 2) h
  obtain ⟨low, hc, hn⟩ := char h
  refine ⟨low, ?_, hc, hn⟩
  simp only [specialKeys, List.mem_cons, List.not_mem_nil, or_false, not_or]
  exact ⟨backspace, tab, ctrl, fun e => shift (.inl e), fun e => shift (.inr e), alt⟩

/-- A typed character is never a newline. -/
lemma Mods.type_ne_newline (h : md.key scancode = .type c) : c ≠ 10 := (Mods.key_type h).2.2.2

end Decoding

/-! ## The line editor -/

/-- The line buffers of the current terminal: `keyboard_buffer`, its `terminal_buffer` and
`buffer_position`. -/
structure Line where
  keyboard : Nat → UInt8
  terminal : Nat → UInt8
  pos : Nat

/-- The line buffers in a state. -/
def Kernel.line (s : Kernel) : Line where
  keyboard := s.kbd.keyboardBuffer
  terminal := s.term.current.terminalBuffer
  pos := s.kbd.bufferPosition

namespace Line

/-- The first 128 bytes set to NUL. -/
def wipe (f : Nat → UInt8) : Nat → UInt8 := fun i => if i < 128 then 0 else f i

/-- A character at the position, in both buffers. -/
def put (l : Line) (c : UInt8) : Line :=
  { l with
    keyboard := Function.update l.keyboard l.pos c
    terminal := Function.update l.terminal l.pos c }

/-- A character at the end of the line, if there is room for it. -/
def type (l : Line) (c : UInt8) : Line :=
  if l.pos < 127 then { l.put c with pos := l.pos + 1 } else l

/-- An empty line. -/
def clear (l : Line) : Line := ⟨wipe l.keyboard, wipe l.terminal, 0⟩

/-- What a key does to the line. -/
def press (l : Line) : Key → Line
  | .backspace => { l with pos := l.pos - 1 }
  | .tab => (((l.type 32).type 32).type 32).type 32
  | .clear => l.clear
  | .enter => l.put 10
  | .type c => l.type c
  | .mods _ => l
  | .switch _ => l
  | .ignored => l

end Line

section Editing

variable {s s' : Kernel}

/-- The current terminal after it was saved. -/
lemma Kernel.current_setTerminal (tm : Term) (e : Terminal) :
    (tm.setTerminal tm.currentTerminalId e).current = e := Function.update_self ..

/-- `putc` leaves the line. -/
lemma line_putc (s : Kernel) (c : UInt8) : (s.putc c).line = s.line := rfl

/-- `puts` leaves the line. -/
lemma line_puts (s : Kernel) (text : List UInt8) : (s.puts text).line = s.line := by
  induction text generalizing s with
  | nil => rfl
  | cons c text ih => exact (ih (s.putc c)).trans (line_putc s c)

/-- `backspace_handler` leaves the line. -/
lemma line_backspaceHandler (s : Kernel) : s.backspaceHandler.line = s.line := by
  rw [Kernel.backspaceHandler]
  split_ifs <;> rfl

/-- `clean_screen` leaves the line. -/
lemma line_cleanScreen (s : Kernel) : s.cleanScreen.line = s.line := rfl

/-- A stored character in the line. -/
lemma line_putBuffer (s : Kernel) (c : UInt8) : (s.putBuffer c).line = s.line.put c := by
  have terminal : (s.putBuffer c).term.current.terminalBuffer
      = Function.update s.term.current.terminalBuffer s.kbd.bufferPosition c := by
    rw [Kernel.putBuffer, Kernel.readToCurTerminalBuffer]
    dsimp only
    rw [Kernel.current_setTerminal, Function.update_self]
  rw [Kernel.line, terminal]
  rfl

/-- A typed character in the line. -/
lemma line_typeChar (s : Kernel) (c : UInt8) : (s.typeChar c).line = s.line.type c := by
  rw [Kernel.typeChar, Line.type]
  by_cases h : s.kbd.bufferPosition < Kernel.maxBufferSize
  · have h' : s.line.pos < 127 := h
    rw [if_pos h, if_pos h', ← line_putBuffer]
    rfl
  · have h' : ¬ s.line.pos < 127 := h
    rw [if_neg h, if_neg h']

/-- A pass of `clean_buffer` over the line. -/
lemma line_cleanIndex (s : Kernel) (i : Nat) :
    (s.cleanIndex i).line = ⟨Function.update s.line.keyboard i 0,
      Function.update s.line.terminal i 0, s.line.pos⟩ := by
  have terminal : (s.cleanIndex i).term.current.terminalBuffer
      = Function.update s.term.current.terminalBuffer i 0 := by
    rw [Kernel.cleanIndex, Kernel.readToCurTerminalBuffer]
    dsimp only
    rw [Kernel.current_setTerminal, Function.update_self]
  rw [Kernel.line, terminal]
  rfl

/-- The loop of `clean_buffer` is one loop on each of the two buffers. -/
lemma line_foldl_cleanIndex (s : Kernel) (l : List Nat) : (l.foldl Kernel.cleanIndex s).line
    = ⟨l.foldl (fun kb i => Function.update kb i 0) s.line.keyboard,
        l.foldl (fun tb i => Function.update tb i 0) s.line.terminal, s.line.pos⟩ := by
  induction l generalizing s with
  | nil => rfl
  | cons i l ih =>
      rw [List.foldl_cons, ih, line_cleanIndex]
      rfl

/-- `clean_buffer` clears the line. -/
lemma line_cleanBuffer (s : Kernel) : s.cleanBuffer.line = s.line.clear := by
  have loop : s.cleanIndices.line
      = ⟨Line.wipe s.line.keyboard, Line.wipe s.line.terminal, s.line.pos⟩ := by
    unfold Kernel.cleanIndices
    rw [line_foldl_cleanIndex, foldl_range_update, foldl_range_update]
    rfl
  have reset (t : Kernel) : { t with kbd.bufferPosition := 0 }.line
    = { t.line with pos := 0 } := rfl
  rw [Kernel.cleanBuffer, reset, loop]
  rfl

/-- The keyboard driver edits the line buffers as the line editor does. -/
theorem line_press (s : Kernel) (k : Key) : (s.press k).line = s.line.press k := by
  cases k with
  | mods md => rfl
  | backspace =>
      show (if s.kbd.bufferPosition > 0 then
        { s with kbd.bufferPosition := s.kbd.bufferPosition - 1 }.backspaceHandler else s).line = _
      split_ifs with h
      · rw [line_backspaceHandler]
        rfl
      · have zero : s.kbd.bufferPosition = 0 := by omega
        rw [Line.press, Kernel.line, zero]
        rfl
  | tab =>
      show ((((s.typeChar 32).typeChar 32).typeChar 32).typeChar 32).line = _
      rw [line_typeChar, line_typeChar, line_typeChar, line_typeChar]
      rfl
  | switch t => rfl
  | clear =>
      show s.cleanScreen.cleanBuffer.line = _
      rw [line_cleanBuffer, line_cleanScreen]
      rfl
  | enter =>
      show ((s.putBuffer 10).putc 10).line = _
      rw [line_putc, line_putBuffer]
      rfl
  | type c => exact line_typeChar s c
  | ignored => rfl

end Editing

/-! ## What a key leaves alone -/

/-- From `s` to `s'` only the line, the cursor and the page of the current terminal changed. -/
structure WorksHere (s s' : Kernel) : Prop where
  mem : SameOn (OffPage videoMem) s.mem s'.mem
  fs : s'.fs = s.fs
  proc : s'.proc = s.proc
  paging : s'.paging = s.paging
  tss : s'.tss = s.tss
  sched : s'.sched = s.sched
  current : s'.term.currentTerminalId = s.term.currentTerminalId
  others : ∀ u, u ≠ s.term.currentTerminalId → s'.term.terminalArray u = s.term.terminalArray u
  own : s'.term.current = { s.term.current with terminalBuffer := s'.term.current.terminalBuffer }
  fits : Fits s'.screen.screenX s'.screen.screenY

section Locality

variable {s s' s'' : Kernel}

/-- Doing nothing works here. -/
lemma WorksHere.refl (h : Fits s.screen.screenX s.screen.screenY) : WorksHere s s :=
  ⟨.refl, rfl, rfl, rfl, rfl, rfl, rfl, fun _ _ => rfl, rfl, h⟩

/-- Two things that work here. -/
lemma WorksHere.trans (h : WorksHere s s') (h' : WorksHere s' s'') : WorksHere s s'' := by
  refine ⟨h.mem.trans h'.mem, h'.fs.trans h.fs, h'.proc.trans h.proc, h'.paging.trans h.paging,
    h'.tss.trans h.tss, h'.sched.trans h.sched, h'.current.trans h.current,
    fun u hu => ?_, ?_, h'.fits⟩
  · rw [h'.others u (h.current.symm ▸ hu), h.others u hu]
  · rw [h'.own, h.own]

/-- `putc` works on the current terminal. -/
lemma worksHere_putc (h : Fits s.screen.screenX s.screen.screenY) (c : UInt8) :
    WorksHere s (s.putc c) := by
  obtain ⟨fits, off⟩ := putcAt_spec videoMem s.page c h
  exact ⟨off, rfl, rfl, rfl, rfl, rfl, rfl, fun _ _ => rfl, rfl, fits⟩

/-- `read_to_cur_terminal_buffer` works on the current terminal. -/
lemma worksHere_readToCurTerminalBuffer (h : Fits s.screen.screenX s.screen.screenY) (i : Nat)
    (c : UInt8) : WorksHere s (s.readToCurTerminalBuffer i c) := by
  refine ⟨.refl, rfl, rfl, rfl, rfl, rfl, rfl, fun u hu => Function.update_of_ne hu .., ?_, h⟩
  rw [Kernel.readToCurTerminalBuffer]
  dsimp only
  rw [Kernel.current_setTerminal]

/-- The keyboard's variables belong to the current terminal. -/
lemma worksHere_setKbd (h : Fits s.screen.screenX s.screen.screenY) (k : Kbd) :
    WorksHere s { s with kbd := k } :=
  ⟨.refl, rfl, rfl, rfl, rfl, rfl, rfl, fun _ _ => rfl, rfl, h⟩

/-- A stored character belongs to the current terminal. -/
lemma worksHere_putBuffer (h : Fits s.screen.screenX s.screen.screenY) (c : UInt8) :
    WorksHere s (s.putBuffer c) := by
  rw [Kernel.putBuffer]
  have first := worksHere_setKbd h
    { s.kbd with keyboardBuffer := Function.update s.kbd.keyboardBuffer s.kbd.bufferPosition c }
  exact first.trans (worksHere_readToCurTerminalBuffer first.fits _ _)

/-- A typed character belongs to the current terminal. -/
lemma worksHere_typeChar (h : Fits s.screen.screenX s.screen.screenY) (c : UInt8) :
    WorksHere s (s.typeChar c) := by
  rw [Kernel.typeChar]
  split_ifs
  · have put := worksHere_putBuffer h c
    have step := worksHere_setKbd put.fits
      { (s.putBuffer c).kbd with bufferPosition := (s.putBuffer c).kbd.bufferPosition + 1 }
    exact (put.trans step).trans (worksHere_putc step.fits c)
  · exact .refl h

/-- `backspace_handler` works on the current terminal. -/
lemma worksHere_backspaceHandler (h : Fits s.screen.screenX s.screen.screenY) :
    WorksHere s s.backspaceHandler := by
  obtain ⟨hx, hy⟩ := h
  rw [Kernel.backspaceHandler]
  simp only [numCols, numRows] at hx hy
  split_ifs with origin
  · exact .refl ⟨hx, hy⟩
  have fits : Fits (if s.page.x = 0 then { s.page with x := numCols - 1, y := s.page.y - 1 }
        else { s.page with x := s.page.x - 1 }).x
      (if s.page.x = 0 then { s.page with x := numCols - 1, y := s.page.y - 1 }
        else { s.page with x := s.page.x - 1 }).y := by
    have px : s.page.x = s.screen.screenX := rfl
    have py : s.page.y = s.screen.screenY := rfl
    split_ifs with hx0
    · simp only [Fits, numCols, numRows]
      omega
    · simp only [Fits, numCols, numRows]
      omega
  refine ⟨?_, rfl, rfl, rfl, rfl, rfl, rfl, fun _ _ => rfl, rfl, fits⟩
  have same : (if s.page.x = 0 then { s.page with x := numCols - 1, y := s.page.y - 1 }
      else { s.page with x := s.page.x - 1 }).mem = s.mem := by
    split_ifs <;> rfl
  have on := (onPage_cellAddr videoMem fits.2 fits.1).1
  have off := SameOn.update (S := OffPage videoMem) (m := s.mem) 32 (not_not.mpr on)
  rw [← same] at off
  exact same ▸ off

/-- `clean_screen` works on the current terminal. -/
lemma worksHere_cleanScreen (s : Kernel) : WorksHere s s.cleanScreen := by
  have origin : Fits 0 0 := by decide
  exact ⟨blankRows_off, rfl, rfl, rfl, rfl, rfl, rfl, fun _ _ => rfl, rfl, origin⟩

/-- A loop that works here in every pass. -/
lemma WorksHere.foldl {α : Type} {f : Kernel → α → Kernel}
    (step : ∀ s i, Fits s.screen.screenX s.screen.screenY → WorksHere s (f s i))
    (h : Fits s.screen.screenX s.screen.screenY) (l : List α) : WorksHere s (l.foldl f s) := by
  induction l generalizing s with
  | nil => exact .refl h
  | cons i l ih =>
      have first := step s i h
      exact first.trans (ih first.fits)

/-- `puts` works on the current terminal. -/
lemma worksHere_puts (h : Fits s.screen.screenX s.screen.screenY) (text : List UInt8) :
    WorksHere s (s.puts text) :=
  .foldl (fun _ c h => worksHere_putc h c) h text

/-- `clean_buffer` works on the current terminal. -/
lemma worksHere_cleanBuffer (h : Fits s.screen.screenX s.screen.screenY) :
    WorksHere s s.cleanBuffer := by
  have pass (s : Kernel) (i : Nat) (h : Fits s.screen.screenX s.screen.screenY) :
      WorksHere s (s.cleanIndex i) := by
    rw [Kernel.cleanIndex]
    have kbd := worksHere_setKbd h
      { s.kbd with keyboardBuffer := Function.update s.kbd.keyboardBuffer i 0 }
    exact kbd.trans (worksHere_readToCurTerminalBuffer kbd.fits _ _)
  have indices : WorksHere s s.cleanIndices := by
    unfold Kernel.cleanIndices
    exact .foldl pass h _
  exact indices.trans (worksHere_setKbd indices.fits _)

/-- `terminal_close` works on the current terminal. -/
lemma worksHere_terminalClose (h : Fits s.screen.screenX s.screen.screenY) :
    WorksHere s s.terminalClose := by
  have clean := worksHere_cleanBuffer h
  have terminal (t : Kernel) (h : Fits t.screen.screenX t.screen.screenY) :
      WorksHere t t.cleanTerminalBuffer := by
    unfold Kernel.cleanTerminalBuffer
    exact .foldl (fun _ i h => worksHere_readToCurTerminalBuffer h i 0) h _
  exact clean.trans (terminal _ clean.fits)

/-- A key works on the current terminal only, and keeps its cursor on the page. -/
theorem worksHere_press (h : Fits s.screen.screenX s.screen.screenY) (k : Key) :
    WorksHere s (s.press k) := by
  cases k with
  | mods md => exact worksHere_setKbd h _
  | backspace =>
      show WorksHere s (if s.kbd.bufferPosition > 0 then
        { s with kbd.bufferPosition := s.kbd.bufferPosition - 1 }.backspaceHandler else s)
      split_ifs
      · have back := worksHere_setKbd h { s.kbd with bufferPosition := s.kbd.bufferPosition - 1 }
        exact back.trans (worksHere_backspaceHandler back.fits)
      · exact .refl h
  | tab =>
      have h1 := worksHere_typeChar h 32
      have h2 := worksHere_typeChar h1.fits 32
      have h3 := worksHere_typeChar h2.fits 32
      have h4 := worksHere_typeChar h3.fits 32
      exact ((h1.trans h2).trans h3).trans h4
  | switch t => exact .refl h
  | clear =>
      have screen := worksHere_cleanScreen s
      exact screen.trans (worksHere_cleanBuffer screen.fits)
  | enter =>
      have put := worksHere_putBuffer h 10
      exact put.trans (worksHere_putc put.fits 10)
  | type c => exact worksHere_typeChar h c
  | ignored => exact .refl h

end Locality

end Kernel391
