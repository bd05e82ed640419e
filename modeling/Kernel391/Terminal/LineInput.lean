import Kernel391.Terminal.Typing

/-!
# Line input

A ledger keeps, beside the kernel, what a user does on one terminal: the text being edited, the
lines ended with Enter, and what the completed reads returned. A pending Enter is only a newline at
`buffer_position`; a key that stores there, steps away from it or clears it, and a switch to another
terminal, disturb it. While no pending Enter is disturbed, the reads are the first of the lines.
-/

namespace Kernel391
open Base

/-- What was edited, entered and read on a terminal. -/
structure Ledger where
  text : List UInt8
  lines : List (List UInt8)
  reads : List (List UInt8)

namespace Ledger

/-- A character at the end of the text, if there is room for it. -/
def type (g : Ledger) (c : UInt8) : Ledger :=
  if g.text.length < 127 then { g with text := g.text ++ [c] } else g

/-- What a key does to the text and the lines. -/
def press (g : Ledger) : Key → Ledger
  | .backspace => { g with text := g.text.dropLast }
  | .tab => (((g.type 32).type 32).type 32).type 32
  | .clear => { g with text := [] }
  | .enter => { g with text := [], lines := g.lines ++ [g.text] }
  | .type c => g.type c
  | .mods _ => g
  | .switch _ => g
  | .ignored => g

end Ledger

/-- A keyboard interrupt, or a call of `terminal_read` that runs without interruption. -/
inductive InputEvent where
  | key (e : KeyEvent)
  | read (buf : Nat) (nbytes : Int)

/-- A run of input events, with the ledger of terminal `t`. -/
def inputStep (t : Nat) (x : Kernel × Ledger) : InputEvent → Option (Kernel × Ledger)
  | .key e => (x.1.handleKeyboardIrq e.fr e.scancode).map fun s' =>
    (s', if x.1.term.currentTerminalId = t then x.2.press (x.1.kbd.mods.key e.scancode) else x.2)
  | .read buf nbytes => (x.1.terminalRead buf nbytes).map fun r =>
    (r.2.2, if x.1.term.currentTerminalId = t ∧ r.1 ≠ -1 then
      { x.2 with reads := x.2.reads ++ [r.2.1] } else x.2)

/-- The key, on terminal `t` with buffer position `pos`, would disturb a pending Enter. -/
def Key.Disturbs (k : Key) (t pos : Nat) : Prop :=
  match k with
  | .switch u => (u : Nat) ≠ t
  | .backspace => 0 < pos
  | .tab => True
  | .clear => True
  | .enter => True
  | .type _ => True
  | .mods _ => False
  | .ignored => False

/-- The event comes while an Enter is pending on terminal `t`, and disturbs it. -/
def DisturbsPending (t : Nat) (x : Kernel × Ledger) : InputEvent → Prop
  | .key e => x.1.term.currentTerminalId = t ∧ x.1.checkEnter = true ∧
    (x.1.kbd.mods.key e.scancode).Disturbs t x.1.kbd.bufferPosition
  | .read _ _ => False

namespace Line

/-- The characters before the position. -/
def text (l : Line) : List UInt8 := (List.range l.pos).map l.terminal

/-- An Enter is pending. -/
def Pending (l : Line) : Prop := l.keyboard l.pos = 10

/-- The line buffers hold what the ledger says: the text being edited, or the one line that was
entered and not yet read. -/
structure Records (l : Line) (g : Ledger) : Prop where
  ok : l.Ok
  single : ∀ j < 128, l.keyboard j = 10 → j = l.pos
  settled : ¬ l.Pending → g.lines = g.reads ∧ g.text = l.text
  pending : l.Pending → g.text = [] ∧ g.lines = g.reads ++ [l.text]

variable {l : Line} {g : Ledger} {c : UInt8}

/-- The text of a line is as long as its position. -/
lemma length_text (l : Line) : l.text.length = l.pos := by
  rw [Line.text, List.length_map, List.length_range]

/-- Without a pending Enter there is no newline in `keyboard_buffer` at all. -/
lemma Records.no_newline (h : l.Records g) (quiet : ¬ l.Pending) {j : Nat} (hj : j < 128) :
    l.keyboard j ≠ 10 := by
  intro e
  rw [h.single j hj e] at e
  exact quiet e

/-- Cells from the position on do not matter to the text. -/
lemma text_put (l : Line) (c : UInt8) : (l.put c).text = l.text := by
  apply List.map_congr_left
  intro j hj
  have ne : j ≠ l.pos := Nat.ne_of_lt (List.mem_range.mp hj)
  exact Function.update_of_ne ne ..

/-- A character stored at the position, and the position moved on. -/
lemma text_append (l : Line) (c : UInt8) :
    Line.text { l.put c with pos := l.pos + 1 } = l.text ++ [c] := by
  show (List.range (l.pos + 1)).map (Function.update l.terminal l.pos c) = l.text ++ [c]
  rw [List.range_succ, List.map_append, List.map_singleton, Function.update_self]
  exact congrArg (· ++ [c]) (text_put l c)

/-- The position moved back. -/
lemma text_dropLast (l : Line) : Line.text { l with pos := l.pos - 1 } = l.text.dropLast := by
  show (List.range (l.pos - 1)).map l.terminal = l.text.dropLast
  rw [Line.text, ← List.map_dropLast, List.dropLast_eq_take, List.length_range, List.take_range,
    Nat.min_eq_left (Nat.sub_le ..)]

/-- A typed character goes to line and ledger. -/
lemma Records.type (h : l.Records g) (quiet : ¬ l.Pending) (hc : c ≠ 10) :
    (l.type c).Records (g.type c) ∧ ¬ (l.type c).Pending := by
  obtain ⟨lines, text⟩ := h.settled quiet
  rw [Line.type, Ledger.type, text, length_text]
  split_ifs with room
  · have none : ∀ j < 128, Function.update l.keyboard l.pos c j ≠ 10 := by
      intro j hj
      by_cases e : j = l.pos
      · rw [e, Function.update_self]
        exact hc
      · rw [Function.update_of_ne e]
        exact h.no_newline quiet hj
    have quiet' : ¬ Line.Pending { l.put c with pos := l.pos + 1 } := none (l.pos + 1) (by omega)
    have ok := h.ok.type hc
    rw [Line.type, if_pos room] at ok
    refine ⟨⟨ok, fun j hj e => absurd e (none j hj), fun _ => ⟨lines, ?_⟩,
      fun p => absurd p quiet'⟩, quiet'⟩
    rw [text_append]
  · exact ⟨h, quiet⟩

/-- Enter ends the line in line and ledger. -/
lemma Records.enter (h : l.Records g) (quiet : ¬ l.Pending) :
    (l.put 10).Records { g with text := [], lines := g.lines ++ [g.text] } := by
  obtain ⟨lines, text⟩ := h.settled quiet
  have now : (l.put 10).Pending := Function.update_self ..
  refine ⟨h.ok.put 10, fun j hj e => ?_, fun q => absurd now q, fun _ => ⟨rfl, ?_⟩⟩
  · by_contra hne
    have ne : j ≠ l.pos := hne
    have old : Function.update l.keyboard l.pos 10 j = 10 := e
    rw [Function.update_of_ne ne] at old
    exact h.no_newline quiet hj old
  · rw [lines, text, text_put]

/-- Backspace takes a character from line and ledger. -/
lemma Records.backspace (h : l.Records g) (quiet : ¬ l.Pending) :
    Line.Records { l with pos := l.pos - 1 } { g with text := g.text.dropLast } := by
  obtain ⟨lines, text⟩ := h.settled quiet
  have pos := h.ok.pos
  have quiet' : ¬ Line.Pending { l with pos := l.pos - 1 } :=
    h.no_newline quiet (show l.pos - 1 < 128 by omega)
  have ok : Line.Ok { l with pos := l.pos - 1 } := by
    have := h.ok.press (k := .backspace) (fun c hk => Key.noConfusion hk)
    exact this
  refine ⟨ok, fun j hj e => absurd e (h.no_newline quiet hj), fun _ => ⟨lines, ?_⟩,
    fun p => absurd p quiet'⟩
  rw [text_dropLast]
  exact congrArg List.dropLast text

/-- Ctrl-L clears line and ledger. -/
lemma Records.clear (h : l.Records g) (quiet : ¬ l.Pending) :
    l.clear.Records { g with text := [] } := by
  obtain ⟨lines, -⟩ := h.settled quiet
  have zero (j : Nat) (hj : j < 128) : l.clear.keyboard j ≠ 10 := by
    show wipe l.keyboard j ≠ 10
    rw [wipe_of_lt hj]
    decide
  exact ⟨.clear l, fun j hj e => absurd e (zero j hj), fun _ => ⟨lines, rfl⟩,
    fun p => absurd p (zero 0 (by omega))⟩

/-- A key that does not disturb a pending Enter does to the buffers what it does to the ledger. -/
lemma Records.press (h : l.Records g) {k : Key} {t : Nat} (hk : ∀ c, k = .type c → c ≠ 10)
    (calm : l.Pending → ¬ k.Disturbs t l.pos) : (l.press k).Records (g.press k) := by
  by_cases pending : l.Pending
  · have calm := calm pending
    cases k with
    | mods md => exact h
    | backspace =>
        -- the pending line is empty
        have zero : l.pos = 0 := by
          by_contra ne
          exact calm (Nat.pos_of_ne_zero ne)
        obtain ⟨empty, -⟩ := h.pending pending
        have same : l.press .backspace = l := by
          show ({ l with pos := l.pos - 1 } : Line) = l
          rw [zero]
          cases l
          exact congrArg (Line.mk _ _) zero.symm
        have same' : g.press .backspace = g := by
          show ({ g with text := g.text.dropLast } : Ledger) = g
          rw [empty]
          cases g
          exact congrArg (Ledger.mk · _ _) empty.symm
        rw [same, same']
        exact h
    | tab => exact absurd trivial calm
    | switch u => exact h
    | clear => exact absurd trivial calm
    | enter => exact absurd trivial calm
    | type c => exact absurd trivial calm
    | ignored => exact h
  · have space : (32 : UInt8) ≠ 10 := by decide
    cases k with
    | mods md => exact h
    | backspace => exact h.backspace pending
    | tab =>
        obtain ⟨h1, q1⟩ := h.type pending space
        obtain ⟨h2, q2⟩ := h1.type q1 space
        obtain ⟨h3, q3⟩ := h2.type q2 space
        exact (h3.type q3 space).1
    | switch u => exact h
    | clear => exact h.clear pending
    | enter => exact h.enter pending
    | type c => exact (h.type pending (hk c rfl)).1
    | ignored => exact h

/-- A read of the pending line takes it off the terminal. -/
lemma Records.read (h : l.Records g) (pending : l.Pending) :
    l.clear.Records { g with reads := g.reads ++ [l.text] } := by
  obtain ⟨empty, lines⟩ := h.pending pending
  have zero (j : Nat) (hj : j < 128) : l.clear.keyboard j ≠ 10 := by
    show wipe l.keyboard j ≠ 10
    rw [wipe_of_lt hj]
    decide
  exact ⟨.clear l, fun j hj e => absurd e (zero j hj), fun _ => ⟨lines, empty⟩,
    fun p => absurd p (zero 0 (by omega))⟩

end Line

section Reading

variable {s s' : Kernel} {buf : Nat} {nbytes : Int}

/-- The copy loop stops at the first newline. -/
lemma copyLine_eq {tb : Nat → UInt8} {p : Nat} (newline : tb p = 10) (before : ∀ j < p, tb j ≠ 10)
    {fuel i : Nat} (le : i ≤ p) (room : p < i + fuel) :
    Kernel.copyLine tb fuel i = some ((List.range' i (p - i)).map tb) := by
  induction fuel generalizing i with
  | zero => omega
  | succ fuel ih =>
      rw [Kernel.copyLine]
      by_cases e : i = p
      · subst e
        rw [if_pos newline, Nat.sub_self]
        rfl
      · have rest : p - i = (p - (i + 1)) + 1 := by omega
        rw [if_neg (before i (by omega)), ih (by omega) (by omega), rest, List.range'_succ]
        rfl

/-- `check_enter` looks for a pending Enter. -/
lemma checkEnter_iff : s.checkEnter = true ↔ s.line.Pending := beq_iff_eq

/-- What an uninterrupted `terminal_read` that is not refused returns is the text of a pending
line. -/
lemma terminalRead_text (ok : s.line.Ok) {r : Int × List UInt8 × Kernel}
    (run : s.terminalRead buf nbytes = some r) :
    r = (-1, [], s) ∨
      s.line.Pending ∧ r = ((s.line.text.length : Int), s.line.text, s.finishRead) := by
  obtain ⟨ret, bytes, s'⟩ := r
  rcases terminalRead_cases run with ⟨rfl, rfl, rfl⟩ | ⟨enter, rfl, rfl, copied⟩
  · exact .inl rfl
  have pending := checkEnter_iff.mp enter
  have pos := ok.pos
  have newline : s.line.terminal s.line.pos = 10 := ok.newline _ (by omega) pending
  have copy : Kernel.copyLine s.term.current.terminalBuffer maxTerminalBufferSize 0
      = some s.line.text := by
    rw [Line.text, List.range_eq_range']
    exact copyLine_eq newline ok.before (Nat.zero_le _) (by rw [maxTerminalBufferSize]; omega)
  obtain rfl := Option.some.inj (copied.symm.trans copy)
  exact .inr ⟨pending, rfl⟩

end Reading

/-- What a run keeps: the ledger of terminal `t` says what the terminal holds. -/
structure Recorded (t : Fin 3) (x : Kernel × Ledger) : Prop where
  typing : Typing x.1
  here : x.1.term.currentTerminalId = t → x.1.line.Records x.2
  away : x.1.term.currentTerminalId ≠ t →
    x.2.lines = x.2.reads ∧ x.2.text = (List.range (x.1.pane t).pos).map (x.1.pane t).terminalBuffer

section Runs

variable {s s' : Kernel} {g : Ledger} {t : Fin 3}

/-- The text of the current terminal is that of the line. -/
lemma text_pane (ht : s.term.currentTerminalId = t) :
    (List.range (s.pane t).pos).map (s.pane t).terminalBuffer = s.line.text := by
  obtain ⟨tb, pos⟩ := pane_line ht.symm
  rw [tb, pos, Line.text]

/-- A terminal is left with nothing pending, and nothing is pending when it is come back to. -/
lemma Recorded.switch (h : Recorded t (s, g)) {fr : Frame} {u : Fin 3} {c : Control}
    (calm : s.term.currentTerminalId = t → s.line.Pending → (u : Nat) = t)
    (run : s.terminalSwitch fr u = some (s', c)) : Recorded t (s', g) := by
  obtain ⟨typing, here, away⟩ := h
  have typing' := typing.switch run
  rcases terminalSwitch_keeps typing.display typing.pages run with
    rfl | ⟨moved, -, -, current, pane, keyboard⟩
  · exact ⟨typing, here, away⟩
  -- what the ledger says of the parked or settled terminal, before the switch and so after it
  have parked : g.lines = g.reads ∧
      g.text = (List.range (s'.pane t).pos).map (s'.pane t).terminalBuffer := by
    rw [(pane t).1, (pane t).2]
    by_cases ht : s.term.currentTerminalId = t
    · have quiet : ¬ s.line.Pending := by
        intro pending
        exact moved ((calm ht pending).trans ht.symm)
      rw [text_pane ht]
      exact (here ht).settled quiet
    · exact away ht
  refine ⟨typing', fun ht => ?_, fun _ => parked⟩
  have empty (j : Nat) (hj : j < 128) : s'.line.keyboard j ≠ 10 := by
    have zero : s'.line.keyboard j = 0 := keyboard j hj
    rw [zero]
    decide
  rw [text_pane ht] at parked
  exact ⟨typing'.line, fun j hj e => absurd e (empty j hj), fun _ => parked,
    fun pending => absurd pending (empty _ (Nat.lt_succ_of_le typing'.line.pos))⟩

/-- A key that disturbs no pending Enter is recorded as it is typed. -/
lemma Recorded.press (h : Recorded t (s, g)) {k : Key} (hk : ∀ c, k = .type c → c ≠ 10)
    (calm : s.term.currentTerminalId = t → s.line.Pending → ¬ k.Disturbs t s.line.pos) :
    Recorded t (s.press k, if s.term.currentTerminalId = t then g.press k else g) := by
  obtain ⟨typing, here, away⟩ := h
  have works := worksHere_press typing.display.visible k
  refine ⟨typing.press hk, fun ht => ?_, fun ht => ?_⟩
  · have ht : s.term.currentTerminalId = t := works.current ▸ ht
    rw [if_pos ht, line_press]
    exact (here ht).press hk (calm ht)
  · have ht : s.term.currentTerminalId ≠ t := works.current ▸ ht
    rw [if_neg ht, works.pane ht.symm]
    exact away ht

/-- A read takes the pending line off the terminal it is made on, and touches no other. -/
lemma Recorded.read (h : Recorded t (s, g)) {buf : Nat} {nbytes : Int}
    {r : Int × List UInt8 × Kernel} (run : s.terminalRead buf nbytes = some r) :
    Recorded t (r.2.2, if s.term.currentTerminalId = t ∧ r.1 ≠ -1 then
      { g with reads := g.reads ++ [r.2.1] } else g) := by
  obtain ⟨typing, here, away⟩ := h
  rcases terminalRead_text typing.line run with rfl | ⟨pending, rfl⟩
  · rw [if_neg (fun c => c.2 rfl)]
    exact ⟨typing, here, away⟩
  obtain ⟨line, current, -, pane⟩ := finishRead_spec typing.display.visible
  have completed : (s.line.text.length : Int) ≠ -1 := by omega
  refine ⟨typing.finishRead, fun ht => ?_, fun ht => ?_⟩
  · have ht : s.term.currentTerminalId = t := current ▸ ht
    rw [if_pos ⟨ht, completed⟩, line]
    exact (here ht).read pending
  · have ht : s.term.currentTerminalId ≠ t := current ▸ ht
    rw [if_neg (fun c => ht c.1), pane t ht.symm]
    exact away ht

/-- One event keeps kernel and ledger in step. -/
lemma Recorded.step {x x' : Kernel × Ledger} {e : InputEvent} (h : Recorded t x)
    (calm : ¬ DisturbsPending t x e) (run : inputStep t x e = some x') : Recorded t x' := by
  obtain ⟨s, g⟩ := x
  cases e with
  | read buf nbytes =>
      obtain ⟨r, hr, rfl⟩ := Option.map_eq_some_iff.mp run
      exact h.read hr
  | key e =>
      obtain ⟨s', he, rfl⟩ := Option.map_eq_some_iff.mp run
      have calm (ht : s.term.currentTerminalId = t) (pending : s.line.Pending) :
          ¬ (s.kbd.mods.key e.scancode).Disturbs t s.line.pos :=
        fun d => calm ⟨ht, checkEnter_iff.mpr pending, d⟩
      rcases handleKeyboardIrq_cases he with ⟨u, c, hk, switch⟩ | ⟨-, rfl⟩
      · rw [hk] at calm ⊢
        have same : g.press (.switch u) = g := rfl
        rw [same, ite_self]
        exact h.switch (fun ht pending => not_not.mp (calm ht pending)) switch
      · exact h.press (fun c hk => Mods.type_ne_newline hk) calm

/-- The reads a ledger records are the first of its lines. -/
lemma Recorded.reads {x : Kernel × Ledger} (h : Recorded t x) : x.2.reads <+: x.2.lines := by
  by_cases ht : x.1.term.currentTerminalId = t
  · by_cases pending : x.1.line.Pending
    · rw [((h.here ht).pending pending).2]
      exact List.prefix_append ..
    · exact ((h.here ht).settled pending).1 ▸ List.prefix_rfl
  · exact (h.away ht).1 ▸ List.prefix_rfl

/-- Kernel and ledger are in step for the first shell. -/
lemma recorded_bootShell {fr : Frame} {b : BootInfo} (h : bootShell fr b = some s) :
    Recorded t (s, ⟨[], [], []⟩) := by
  obtain ⟨kbd, -⟩ := kbd_bootShell h
  have typing := typing_bootShell h
  have empty (j : Nat) : s.line.keyboard j ≠ 10 := by
    rw [Kernel.line, kbd]
    exact (by decide : (0 : UInt8) ≠ 10)
  have pos : s.line.pos = 0 := by
    rw [Kernel.line, kbd]
  have text : s.line.text = [] := by
    rw [Line.text, pos]
    rfl
  refine ⟨typing, fun _ => ?_, fun _ => ⟨rfl, ?_⟩⟩
  · exact ⟨typing.line, fun j _ e => absurd e (empty j), fun _ => ⟨rfl, text.symm⟩,
      fun pending => absurd pending (empty _)⟩
  · rw [pane_bootShell h]
    rfl

end Runs

/-- **Line input.** While no event disturbs a pending Enter, the reads completed on a terminal
return, in order, the lines entered on it: none is lost, none are joined, and none is read before
its Enter. -/
theorem lines_read (fr : Frame) (b : BootInfo) (s : Kernel) (t : Fin 3) (es : List InputEvent)
    (h : bootShell fr b = some s)
    (calm : Meets (inputStep t) (fun x e => ¬ DisturbsPending t x e) (s, ⟨[], [], []⟩) es) :
    Throughout (inputStep t) (fun x => x.2.reads <+: x.2.lines) (s, ⟨[], [], []⟩) es := by
  have start : Recorded t (s, ⟨[], [], []⟩) := recorded_bootShell h
  refine ⟨start.reads, along_of_meets (Recorded t) ?_ start calm⟩
  intro x e x' inv quiet run
  have inv' := inv.step quiet run
  exact ⟨inv', inv'.reads⟩

/-- a, Enter, and a read; then b, c, Enter, and a read. -/
def sampleInput : List InputEvent :=
  [.key ⟨sampleFrame, 0x1E⟩, .key ⟨sampleFrame, 0x1C⟩, .read 0x08048000 100,
    .key ⟨sampleFrame, 0x30⟩, .key ⟨sampleFrame, 0x2E⟩, .key ⟨sampleFrame, 0x1C⟩,
    .read 0x08048000 100]

/-- The two reads return the two lines. -/
theorem lines_read_sample : ∃ s x, bootShell sampleFrame sampleBoot = some s ∧
    runs (inputStep 0) (s, ⟨[], [], []⟩) sampleInput = some x ∧
    x.2.reads = [[97], [98, 99]] ∧ x.2.reads <+: x.2.lines := by
  have facts : ((bootShell sampleFrame sampleBoot).bind fun s =>
      (inputStep 0 (s, ⟨[], [], []⟩) (.key ⟨sampleFrame, 0x1E⟩)).bind fun x₁ =>
      (inputStep 0 x₁ (.key ⟨sampleFrame, 0x1C⟩)).bind fun x₂ =>
      (inputStep 0 x₂ (.read 0x08048000 100)).bind fun x₃ =>
      (inputStep 0 x₃ (.key ⟨sampleFrame, 0x30⟩)).bind fun x₄ =>
      (inputStep 0 x₄ (.key ⟨sampleFrame, 0x2E⟩)).bind fun x₅ =>
      (inputStep 0 x₅ (.key ⟨sampleFrame, 0x1C⟩)).bind fun x₆ =>
      (inputStep 0 x₆ (.read 0x08048000 100)).map fun x₇ => (s.checkEnter || x₁.1.checkEnter ||
        x₃.1.checkEnter || x₄.1.checkEnter || x₅.1.checkEnter, x₇.2.reads))
      = some (false, [[97], [98, 99]]) := by decide +kernel
  obtain ⟨s, hs, h⟩ := Option.bind_eq_some_iff.mp facts
  obtain ⟨x₁, h₁, h⟩ := Option.bind_eq_some_iff.mp h
  obtain ⟨x₂, h₂, h⟩ := Option.bind_eq_some_iff.mp h
  obtain ⟨x₃, h₃, h⟩ := Option.bind_eq_some_iff.mp h
  obtain ⟨x₄, h₄, h⟩ := Option.bind_eq_some_iff.mp h
  obtain ⟨x₅, h₅, h⟩ := Option.bind_eq_some_iff.mp h
  obtain ⟨x₆, h₆, h⟩ := Option.bind_eq_some_iff.mp h
  obtain ⟨x₇, h₇, e⟩ := Option.map_eq_some_iff.mp h
  simp only [Prod.mk.injEq, Bool.or_eq_false_iff] at e
  obtain ⟨⟨⟨⟨⟨q, q₁⟩, q₃⟩, q₄⟩, q₅⟩, reads⟩ := e
  have run : runs (inputStep 0) (s, ⟨[], [], []⟩) sampleInput = some x₇ := by
    rw [sampleInput, runs_cons, h₁, Option.bind_some, runs_cons, h₂, Option.bind_some, runs_cons,
      h₃, Option.bind_some, runs_cons, h₄, Option.bind_some, runs_cons, h₅, Option.bind_some,
      runs_cons, h₆, Option.bind_some, runs_cons, h₇, Option.bind_some, runs_nil]
  have quiet {x : Kernel × Ledger} (q : x.1.checkEnter = false) (e : KeyEvent) :
      ¬ DisturbsPending 0 x (.key e) := fun d => absurd (q.symm.trans d.2.1) Bool.false_ne_true
  have calm : Meets (inputStep 0) (fun x e => ¬ DisturbsPending 0 x e) (s, ⟨[], [], []⟩)
      sampleInput :=
    .cons (quiet q _) h₁ (.cons (quiet q₁ _) h₂ (.cons id h₃ (.cons (quiet q₃ _) h₄
      (.cons (quiet q₄ _) h₅ (.cons (quiet q₅ _) h₆ (.cons id h₇ trivial))))))
  exact ⟨s, x₇, hs, run, reads, (lines_read sampleFrame sampleBoot s 0 _ hs calm).last run⟩

/-- a, Enter, b, Enter: the second line takes the place of the first newline, and the next read
returns the two lines as one. -/
theorem not_always_lines_read : ¬ ∀ (fr : Frame) (b : BootInfo) (s : Kernel) (t : Fin 3)
    (es : List InputEvent), bootShell fr b = some s →
    Throughout (inputStep t) (fun x => x.2.reads <+: x.2.lines) (s, ⟨[], [], []⟩) es := by
  intro claim
  have facts : ((bootShell sampleFrame sampleBoot).bind fun s =>
    runs (inputStep 0) (s, ⟨[], [], []⟩)
      [.key ⟨sampleFrame, 0x1E⟩, .key ⟨sampleFrame, 0x1C⟩, .key ⟨sampleFrame, 0x30⟩,
        .key ⟨sampleFrame, 0x1C⟩, .read 0x08048000 100]).map (fun x => (x.2.reads, x.2.lines))
      = some ([[97, 98]], [[97], [98]]) := by decide +kernel
  obtain ⟨x, h, e⟩ := Option.map_eq_some_iff.mp facts
  obtain ⟨s, hs, run⟩ := Option.bind_eq_some_iff.mp h
  obtain ⟨reads, lines⟩ := Prod.mk.inj e
  have first := (claim sampleFrame sampleBoot s 0 _ hs).last run
  rw [reads, lines] at first
  exact absurd first (by decide)

end Kernel391
