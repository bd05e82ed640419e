import Kernel391.Terminal.LineInput

/-!
# What a read returns

`terminal_read` copies up to the newline of the terminal buffer, whatever count it is given: it
respects the count exactly when the waiting line is no longer than it (`terminalRead_count`). And it
returns what the keys put in the line: a key without a character puts a NUL there, all other keys
put text (`reads_text`).
-/

namespace Kernel391
open Base

/-! ## The count of a read -/

/-- The line waits on the current terminal, ended with Enter. -/
structure Waiting (s : Kernel) (line : List UInt8) : Prop where
  fits : line.length ≤ 127
  enter : s.checkEnter = true
  chars : (List.range line.length).map s.term.current.terminalBuffer = line
  single : 10 ∉ line
  newline : s.term.current.terminalBuffer line.length = 10

/-- The read of the waiting line stores at most `nbytes` bytes, and what it stores and returns is
the beginning of the line and its length. -/
def RespectsCount (s : Kernel) (line : List UInt8) (buf : Nat) (nbytes : Int) : Prop :=
  ∃ ret stored s', s.terminalRead buf nbytes = some (ret, stored, s') ∧
    (stored.length : Int) ≤ nbytes ∧ ret = min nbytes line.length ∧ stored = line.take nbytes.toNat

section Count

variable {s : Kernel} {line : List UInt8} {buf : Nat} {nbytes : Int}

/-- A read that is not refused returns the whole waiting line. -/
lemma terminalRead_waiting (h : Waiting s line) (hbuf : buf ≠ 0) (low : 0 ≤ nbytes)
    (high : nbytes < 1024) :
    s.terminalRead buf nbytes = some ((line.length : Int), line, s.finishRead) := by
  obtain ⟨fits, enter, chars, single, newline⟩ := h
  have before : ∀ j < line.length, s.term.current.terminalBuffer j ≠ 10 := by
    intro j hj e
    have mem : s.term.current.terminalBuffer j ∈ line :=
      chars ▸ List.mem_map_of_mem (List.mem_range.mpr hj)
    exact single (e ▸ mem)
  have copy : Kernel.copyLine s.term.current.terminalBuffer maxTerminalBufferSize 0
      = some line := by
    rw [copyLine_eq newline before (Nat.zero_le _) (by rw [maxTerminalBufferSize]; omega),
      Nat.sub_zero, ← List.range_eq_range', chars]
  rw [Kernel.terminalRead, if_neg hbuf, if_neg (by omega), if_neg (by omega), enter,
    if_neg Bool.noConfusion, copy]
  rfl

end Count

/-- **The count of a read.** A read of a waiting line stores, and returns, no more than it was asked
for exactly when the line is no longer than that: the copy loop never looks at `nbytes`. -/
theorem terminalRead_count (s : Kernel) (line : List UInt8) (buf : Nat) (nbytes : Int)
    (h : Waiting s line) (hbuf : buf ≠ 0) (low : 0 ≤ nbytes) (high : nbytes < 1024) :
    RespectsCount s line buf nbytes ↔ (line.length : Int) ≤ nbytes := by
  have read := terminalRead_waiting h hbuf low high
  constructor
  · rintro ⟨ret, stored, s', run, count, -, -⟩
    rw [read] at run
    obtain ⟨-, rfl, -⟩ := Prod.mk.inj (Option.some.inj run)
    exact count
  · intro le
    have whole : line.take nbytes.toNat = line := List.take_of_length_le (by omega)
    exact ⟨_, _, _, read, le, (Int.min_eq_right le).symm, whole.symm⟩

/-- The keys of a line of two characters, on terminal 0. -/
def sampleLine : List InputEvent :=
  [.key ⟨sampleFrame, 0x1E⟩, .key ⟨sampleFrame, 0x30⟩, .key ⟨sampleFrame, 0x1C⟩]

/-- The line `ab` waits once its keys and Enter were struck. -/
lemma waiting_sampleLine : ∃ s x, bootShell sampleFrame sampleBoot = some s ∧
    runs (inputStep 0) (s, ⟨[], [], []⟩) sampleLine = some x ∧ Waiting x.1 [97, 98] := by
  have facts : ((bootShell sampleFrame sampleBoot).bind fun s =>
      runs (inputStep 0) (s, ⟨[], [], []⟩) sampleLine).map (fun x =>
        (x.1.checkEnter, (List.range 2).map x.1.term.current.terminalBuffer,
          x.1.term.current.terminalBuffer 2)) = some (true, [97, 98], 10) := by decide +kernel
  obtain ⟨x, h, e⟩ := Option.map_eq_some_iff.mp facts
  obtain ⟨s, hs, run⟩ := Option.bind_eq_some_iff.mp h
  obtain ⟨enter, bytes⟩ := Prod.mk.inj e
  obtain ⟨chars, newline⟩ := Prod.mk.inj bytes
  exact ⟨s, x, hs, run, by decide, enter, chars, by decide, newline⟩

/-- A read of two bytes from the line `ab`. -/
theorem terminalRead_count_sample : ∃ s, Waiting s [97, 98] ∧
    RespectsCount s [97, 98] 0x08048000 2 := by
  obtain ⟨s, x, -, -, waiting⟩ := waiting_sampleLine
  exact ⟨x.1, waiting, (terminalRead_count x.1 [97, 98] 0x08048000 2 waiting (by decide) (by decide)
    (by decide)).mpr (by decide)⟩

/-- A read of one byte from a line of two: both are stored. -/
theorem not_always_terminalRead_count : ¬ ∀ (fr : Frame) (b : BootInfo) (s : Kernel)
    (es : List InputEvent) (x : Kernel × Ledger) (line : List UInt8) (buf : Nat) (nbytes : Int),
    bootShell fr b = some s → runs (inputStep 0) (s, ⟨[], [], []⟩) es = some x → Waiting x.1 line →
    buf ≠ 0 → 0 ≤ nbytes → nbytes < 1024 → RespectsCount x.1 line buf nbytes := by
  intro claim
  obtain ⟨s, x, hs, run, waiting⟩ := waiting_sampleLine
  obtain ⟨ret, stored, s', read, count, -, -⟩ :=
    claim sampleFrame sampleBoot s sampleLine x [97, 98]
    0x08048000 1 hs run waiting (by decide) (by decide) (by decide)
  rw [terminalRead_waiting waiting (by decide) (by decide) (by decide)] at read
  obtain ⟨-, rfl, -⟩ := Prod.mk.inj (Option.some.inj read)
  exact absurd count (by decide)

/-! ## The bytes of a line -/

/-- The byte is a printable ASCII character or a space. -/
def Printable (c : UInt8) : Prop := 32 ≤ c ∧ c ≤ 126

/-- The line is text: its bytes are printable, and ended with a NUL it is a string of its own
length. -/
structure IsText (line : List UInt8) : Prop where
  printable : ∀ c ∈ line, Printable c
  length : strlen (cstring line) = some line.length

/-- The keys of `scancode_map` without a character that are not special: the code 0, Esc and the
keypad's star. -/
def blankKeys : List UInt8 := [0, 1, 0x37]

/-- The event is a key without a character, struck while the line has room. -/
def TypesBlank (s : Kernel) : InputEvent → Prop
  | .key e => e.scancode ∈ blankKeys ∧ s.kbd.bufferPosition < 127
  | .read _ _ => False

/-- The first `n` bytes of a buffer are printable. -/
def PrintableTo (f : Nat → UInt8) (n : Nat) : Prop := ∀ j < n, Printable (f j)

/-- What every terminal's line holds is printable. -/
structure Texts (s : Kernel) : Prop where
  typing : Typing s
  pane : ∀ t : Fin 3, PrintableTo (s.pane t).terminalBuffer (s.pane t).pos

section Text

variable {s s' : Kernel} {l : Line} {c : UInt8} {md : Mods} {scancode : UInt8}

/-- The characters of the keys that are neither special, blank nor Enter. -/
lemma scancodeChar_printable (low : scancode < 58) (plain : scancode ∉ specialKeys)
    (shown : scancode ∉ blankKeys) {mode : Nat} (hm : mode < 4)
    (hn : scancodeChar scancode mode ≠ 10) : Printable (scancodeChar scancode mode) := by
  have table : ((List.range 58).all fun n => (List.range 4).all fun mode =>
      decide (UInt8.ofNat n ∉ specialKeys → UInt8.ofNat n ∉ blankKeys →
        scancodeChar (UInt8.ofNat n) mode ≠ 10 →
        32 ≤ scancodeChar (UInt8.ofNat n) mode ∧ scancodeChar (UInt8.ofNat n) mode ≤ 126))
          = true := by
    decide +kernel
  have row := List.all_eq_true.mp table scancode.toNat (List.mem_range.mpr low)
  have cell := List.all_eq_true.mp row mode (List.mem_range.mpr hm)
  rw [UInt8.ofNat_toNat] at cell
  exact of_decide_eq_true cell plain shown hn

/-- The table of scancodes has a column for every state of the modifiers. -/
lemma Mods.keyMode_lt (md : Mods) : md.keyMode < 4 := by
  rw [Mods.keyMode]
  cases md.shiftPressed <;> cases md.capslockState <;> decide

/-- A key with a character types text. -/
lemma Mods.type_printable (h : md.key scancode = .type c) (shown : scancode ∉ blankKeys) :
    Printable c := by
  obtain ⟨low, plain, rfl, hn⟩ := Mods.key_type h
  exact scancodeChar_printable low plain shown md.keyMode_lt hn

/-- A printable character keeps the line printable. -/
lemma PrintableTo.type (h : PrintableTo l.terminal l.pos) (hc : l.pos < 127 → Printable c) :
    PrintableTo (l.type c).terminal (l.type c).pos := by
  rw [Line.type]
  split_ifs with room
  · intro j hj
    have hj : j < l.pos + 1 := hj
    show Printable (Function.update l.terminal l.pos c j)
    by_cases e : j = l.pos
    · rw [e, Function.update_self]
      exact hc room
    · rw [Function.update_of_ne e]
      exact h j (by omega)
  · exact h

/-- Keys with characters keep the line printable. -/
lemma PrintableTo.press (h : PrintableTo l.terminal l.pos) {k : Key}
    (hk : ∀ c, k = .type c → l.pos < 127 → Printable c) :
    PrintableTo (l.press k).terminal (l.press k).pos := by
  have space : Printable 32 := by
    rw [Printable]
    decide
  cases k with
  | mods md => exact h
  | backspace =>
      intro j hj
      have hj : j < l.pos - 1 := hj
      exact h j (by omega)
  | tab =>
      have h1 := h.type fun _ => space
      have h2 := h1.type fun _ => space
      have h3 := h2.type fun _ => space
      exact h3.type fun _ => space
  | switch t => exact h
  | clear => exact fun j hj => absurd hj (Nat.not_lt_zero j)
  | enter =>
      intro j hj
      have ne : j ≠ l.pos := Nat.ne_of_lt hj
      show Printable (Function.update l.terminal l.pos 10 j)
      rw [Function.update_of_ne ne]
      exact h j hj
  | type c => exact h.type (hk c rfl)
  | ignored => exact h

/-- The line of the current terminal. -/
lemma Texts.line (h : Texts s) : PrintableTo s.line.terminal s.line.pos := by
  have pane := h.pane ⟨_, h.typing.current⟩
  obtain ⟨tb, pos⟩ := pane_line (s := s) rfl
  rw [tb, pos] at pane
  exact pane

/-- A step that works on the current line only, and leaves it printable. -/
lemma Texts.here (h : Texts s) (typing : Typing s')
    (current : s'.term.currentTerminalId = s.term.currentTerminalId)
    (others : ∀ u, u ≠ s.term.currentTerminalId → s'.pane u = s.pane u)
    (line : PrintableTo s'.line.terminal s'.line.pos) : Texts s' := by
  refine ⟨typing, fun t => ?_⟩
  by_cases ht : (t : Nat) = s.term.currentTerminalId
  · obtain ⟨tb, pos⟩ := pane_line (ht.trans current.symm)
    rw [tb, pos]
    exact line
  · rw [others t ht]
    exact h.pane t

/-- A key that types no newline or odd character keeps the texts. -/
lemma Texts.press (h : Texts s) {k : Key} (newline : ∀ c, k = .type c → c ≠ 10)
    (hk : ∀ c, k = .type c → s.kbd.bufferPosition < 127 → Printable c) : Texts (s.press k) := by
  have works := worksHere_press h.typing.display.visible k
  refine h.here (h.typing.press newline) works.current (fun u hu => works.pane hu) ?_
  rw [line_press]
  exact h.line.press hk

/-- `terminal_switch` keeps the texts. -/
lemma Texts.switch (h : Texts s) {fr : Frame} {u : Fin 3} {c : Control}
    (run : s.terminalSwitch fr u = some (s', c)) : Texts s' := by
  refine ⟨h.typing.switch run, fun t => ?_⟩
  rcases terminalSwitch_keeps h.typing.display h.typing.pages run with rfl | ⟨-, -, -, -, pane, -⟩
  · exact h.pane t
  · obtain ⟨tb, pos⟩ := pane t
    rw [tb, pos]
    exact h.pane t

/-- The end of a read keeps the texts. -/
lemma Texts.finishRead (h : Texts s) : Texts s.finishRead := by
  obtain ⟨line, current, -, others⟩ := finishRead_spec h.typing.display.visible
  refine h.here h.typing.finishRead current others ?_
  rw [line]
  exact fun j hj => absurd hj (Nat.not_lt_zero j)

/-- A printable line is a string of its own length. -/
lemma isText_of_printable {text : List UInt8} (printable : ∀ c ∈ text, Printable c)
    (short : text.length < 2 ^ 32) : IsText text := by
  refine ⟨printable, strlen_eq (List.getD_eq_default text 0 (Nat.le_refl _)) (fun k hk => ?_) short⟩
  have inside : cstring text k = text[k] := List.getD_eq_getElem text 0 hk
  rw [inside]
  obtain ⟨low, -⟩ := printable text[k] (List.getElem_mem hk)
  intro e
  rw [e] at low
  exact absurd low (by decide)

/-- What a read returns of a printable line is text. -/
lemma Texts.text (h : Texts s) : IsText s.line.text := by
  have pos := h.typing.line.pos
  refine isText_of_printable (fun c hc => ?_) ?_
  · obtain ⟨j, hj, rfl⟩ := List.mem_map.mp hc
    exact h.line j (List.mem_range.mp hj)
  · rw [Line.length_text]
    omega

/-- The first shell's lines are texts. -/
lemma texts_bootShell {fr : Frame} {b : BootInfo} (h : bootShell fr b = some s) : Texts s := by
  refine ⟨typing_bootShell h, fun t j hj => ?_⟩
  rw [pane_bootShell h] at hj
  exact absurd hj (Nat.not_lt_zero j)

end Text

/-- A typed character is no read. -/
lemma reads_type (g : Ledger) (c : UInt8) : (g.type c).reads = g.reads := by
  rw [Ledger.type]
  split_ifs <;> rfl

/-- No key completes a read. -/
lemma reads_press (g : Ledger) (k : Key) : (g.press k).reads = g.reads := by
  cases k with
  | tab =>
      show ((((g.type 32).type 32).type 32).type 32).reads = g.reads
      rw [reads_type, reads_type, reads_type, reads_type]
  | type c => exact reads_type g c
  | _ => rfl

/-- One event keeps the lines printable, and what it reads is text. -/
lemma reads_text_step {t : Nat} {x x' : Kernel × Ledger} {e : InputEvent}
    (h : Texts x.1 ∧ ∀ line ∈ x.2.reads, IsText line) (shown : ¬ TypesBlank x.1 e)
    (run : inputStep t x e = some x') : Texts x'.1 ∧ ∀ line ∈ x'.2.reads, IsText line := by
  obtain ⟨s, g⟩ := x
  obtain ⟨texts, reads⟩ := h
  cases e with
  | read buf nbytes =>
      obtain ⟨r, hr, rfl⟩ := Option.map_eq_some_iff.mp run
      rcases terminalRead_text texts.typing.line hr with rfl | ⟨-, rfl⟩
      · dsimp only
        rw [if_neg (fun c => c.2 rfl)]
        exact ⟨texts, reads⟩
      · refine ⟨texts.finishRead, ?_⟩
        dsimp only
        split_ifs
        · rw [List.forall_mem_append]
          exact ⟨reads, List.forall_mem_singleton.mpr texts.text⟩
        · exact reads
  | key e =>
      obtain ⟨s', he, rfl⟩ := Option.map_eq_some_iff.mp run
      have same : (if s.term.currentTerminalId = t then g.press (s.kbd.mods.key e.scancode)
          else g).reads = g.reads := by
        split_ifs
        · exact reads_press g _
        · rfl
      dsimp only
      rw [same]
      refine ⟨?_, reads⟩
      rcases handleKeyboardIrq_cases he with ⟨u, c, -, switch⟩ | ⟨-, rfl⟩
      · exact texts.switch switch
      · refine texts.press (fun c hk => Mods.type_ne_newline hk) fun c hk room => ?_
        exact Mods.type_printable hk fun blank => shown ⟨blank, room⟩

/-- **Lines are text.** In every run in which no key without a character is struck while the line
has room, every line read is text. -/
theorem reads_text (fr : Frame) (b : BootInfo) (s : Kernel) (t : Nat) (es : List InputEvent)
    (h : bootShell fr b = some s)
    (shown : Meets (inputStep t) (fun x e => ¬ TypesBlank x.1 e) (s, ⟨[], [], []⟩) es) :
    Throughout (inputStep t) (fun x => ∀ line ∈ x.2.reads, IsText line) (s, ⟨[], [], []⟩) es := by
  have start : Texts s ∧ ∀ line ∈ (Ledger.mk [] [] []).reads, IsText line :=
    ⟨texts_bootShell h, fun line hl => absurd hl List.not_mem_nil⟩
  refine ⟨start.2, along_of_meets (fun x => Texts x.1 ∧ ∀ line ∈ x.2.reads, IsText line) ?_ start
    shown⟩
  intro x e x' inv hC run
  have inv' := reads_text_step inv hC run
  exact ⟨inv', inv'.2⟩

/-- The line `ab` is read. -/
theorem reads_text_sample : ∃ s x, bootShell sampleFrame sampleBoot = some s ∧
    runs (inputStep 0) (s, ⟨[], [], []⟩) (sampleLine ++ [.read 0x08048000 128]) = some x ∧
    x.2.reads = [[97, 98]] ∧ ∀ line ∈ x.2.reads, IsText line := by
  have facts : ((bootShell sampleFrame sampleBoot).bind fun s =>
      runs (inputStep 0) (s, ⟨[], [], []⟩) (sampleLine ++ [.read 0x08048000 128])).map
        (fun x => x.2.reads) = some [[97, 98]] := by decide +kernel
  obtain ⟨x, h, reads⟩ := Option.map_eq_some_iff.mp facts
  obtain ⟨s, hs, run⟩ := Option.bind_eq_some_iff.mp h
  have inputs : ∀ e ∈ sampleLine ++ [.read 0x08048000 128], ∀ s, ¬ TypesBlank s e := by
    rw [sampleLine]
    simp only [List.cons_append, List.nil_append, List.forall_mem_cons, List.not_mem_nil,
      IsEmpty.forall_iff, implies_true, and_true]
    exact ⟨fun s h => absurd h.1 (by decide), fun s h => absurd h.1 (by decide),
      fun s h => absurd h.1 (by decide), fun s h => h⟩
  have shown : Meets (inputStep 0) (fun x e => ¬ TypesBlank x.1 e) (s, ⟨[], [], []⟩)
      (sampleLine ++ [.read 0x08048000 128]) :=
    (meets_of_inputs inputs).imp fun x e _ h => h x.1
  exact ⟨s, x, hs, run, reads, (reads_text sampleFrame sampleBoot s 0 _ hs shown).last run⟩

/-- Esc and Enter: the line read is one NUL, which is the string of length 0. -/
theorem not_always_reads_text : ¬ ∀ (fr : Frame) (b : BootInfo) (s : Kernel) (t : Nat)
    (es : List InputEvent), bootShell fr b = some s →
    Throughout (inputStep t) (fun x => ∀ line ∈ x.2.reads, IsText line) (s, ⟨[], [], []⟩) es := by
  intro claim
  have facts : ((bootShell sampleFrame sampleBoot).bind fun s =>
    runs (inputStep 0) (s, ⟨[], [], []⟩)
      [.key ⟨sampleFrame, 0x01⟩, .key ⟨sampleFrame, 0x1C⟩, .read 0x08048000 128]).map
        (fun x => x.2.reads) = some [[0]] := by decide +kernel
  obtain ⟨x, h, reads⟩ := Option.map_eq_some_iff.mp facts
  obtain ⟨s, hs, run⟩ := Option.bind_eq_some_iff.mp h
  have text := (claim sampleFrame sampleBoot s 0 _ hs).last run
  rw [reads] at text
  obtain ⟨low, -⟩ := (List.forall_mem_singleton.mp text).printable 0 (List.mem_singleton_self 0)
  exact absurd low (by decide)

end Kernel391
