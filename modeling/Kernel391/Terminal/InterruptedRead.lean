import Kernel391.Terminal.LineInput
import Mathlib.Logic.Function.Iterate

/-!
# Interrupted reads

`terminal_read` step by step, with keyboard interrupts between the steps. The copy loop looks for
the newline `check_enter` has seen in a buffer that keys go on editing, and finds the buffer through
`current_terminal_id`. The invariant splits the line into what is copied and what the buffer still
holds; it is kept as long as no key changes the rest and nothing is copied from another terminal.
-/

namespace Kernel391
open Base

/-- Where a reader is in `terminal_read`. Once `check_enter` has succeeded it carries the terminal
that was current and the characters that stood before the newline then. -/
inductive Reader where
  | waiting
  | copying (t : Nat) (line copied : List UInt8)
  | cleaning (line copied : List UInt8)
  | returned (line copied : List UInt8)
  deriving DecidableEq

/-- A keyboard interrupt, or one step of the reader. -/
inductive ReadEvent where
  | irq (e : KeyEvent)
  | reader

/-- One step: a test of `check_enter`, a character of the copy loop, the final `clean_buffer`, or
the next call. -/
def readStep (x : Kernel × Reader) : ReadEvent → Option (Kernel × Reader)
  | .irq e => (x.1.handleKeyboardIrq e.fr e.scancode).map fun s' => (s', x.2)
  | .reader =>
    match x.2 with
    | .waiting =>
      some (x.1,
          if x.1.checkEnter then .copying x.1.term.currentTerminalId x.1.line.text [] else .waiting)
    | .copying t line copied =>
      let c := x.1.term.current.terminalBuffer copied.length
      some (x.1, if c = 10 then .cleaning line copied else .copying t line (copied ++ [c]))
    | .cleaning line copied => some (x.1.finishRead, .returned line copied)
    | .returned _ _ => some (x.1, .waiting)

/-- The next index is inside `terminal_buffer`, and what was copied is what stood before the
newline. -/
def Reader.Intact : Reader → Prop
  | .waiting => True
  | .copying _ _ copied => copied.length < maxTerminalBufferSize
  | .cleaning line copied => copied = line
  | .returned line copied => copied = line

/-- Whether a reader is intact can be read from it. -/
instance (r : Reader) : Decidable r.Intact :=
  match r with
  | .waiting => inferInstanceAs (Decidable True)
  | .copying _ _ copied => inferInstanceAs (Decidable (copied.length < maxTerminalBufferSize))
  | .cleaning line copied => inferInstanceAs (Decidable (copied = line))
  | .returned line copied => inferInstanceAs (Decidable (copied = line))

/-- The key, at buffer position `pos`, stores `c` at index `j` of the line buffers. -/
def Key.Stores (k : Key) (pos j : Nat) (c : UInt8) : Prop :=
  match k with
  | .tab => pos ≤ j ∧ j < pos + 4 ∧ j < 127 ∧ c = 32
  | .clear => j < 128 ∧ c = 0
  | .enter => j = pos ∧ c = 10
  | .type c' => j = pos ∧ pos < 127 ∧ c = c'
  | .mods _ => False
  | .backspace => False
  | .switch _ => False
  | .ignored => False

/-- The event comes during the copy loop, and is a key that changes a character the loop has still
to see, or a step of the loop while another terminal is current. -/
def Spoils (x : Kernel × Reader) : ReadEvent → Prop
  | .irq e => ∃ t line copied, x.2 = .copying t line copied ∧ x.1.term.currentTerminalId = t ∧
    ∃ j c, copied.length ≤ j ∧ j ≤ line.length ∧
      (x.1.kbd.mods.key e.scancode).Stores x.1.kbd.bufferPosition j c ∧
      x.1.term.current.terminalBuffer j ≠ c
  | .reader => ∃ t line copied, x.2 = .copying t line copied ∧ x.1.term.currentTerminalId ≠ t

section Stores

variable {l : Line} {c : UInt8} {j : Nat}

/-- Characters typed elsewhere, or the same, leave a cell of the buffer. -/
lemma Line.iterate_type (n : Nat)
    (h : l.pos ≤ j → j < l.pos + n → j < 127 → l.terminal j = c) :
    ((fun l : Line => l.type c)^[n] l).terminal j = l.terminal j := by
  induction n generalizing l with
  | zero => rfl
  | succ n ih =>
      rw [Function.iterate_succ_apply]
      by_cases room : l.pos < 127
      · have typed : l.type c = { l.put c with pos := l.pos + 1 } := if_pos room
        have first : (l.type c).terminal j = l.terminal j := by
          rw [typed]
          show Function.update l.terminal l.pos c j = l.terminal j
          by_cases e : j = l.pos
          · rw [e, Function.update_self]
            exact (e ▸ h (by omega) (by omega) (by omega)).symm
          · exact Function.update_of_ne e ..
        have pos : (l.type c).pos = l.pos + 1 := by rw [typed]
        rw [ih (fun low high in127 => ?_), first]
        rw [first]
        exact h (by omega) (by omega) in127
      · have typed : l.type c = l := if_neg room
        rw [typed]
        exact ih fun low high in127 => h low (by omega) in127

/-- A cell of the terminal buffer stays as it is when every store of the key to it changes
nothing. -/
lemma Line.press_terminal {k : Key} (hj : j < 128)
    (h : ∀ c, k.Stores l.pos j c → l.terminal j = c) : (l.press k).terminal j = l.terminal j := by
  cases k with
  | mods md => rfl
  | backspace => rfl
  | tab => exact Line.iterate_type 4 fun low high in127 => h 32 ⟨low, high, in127, rfl⟩
  | switch u => rfl
  | clear =>
      show wipe l.terminal j = l.terminal j
      rw [wipe_of_lt hj]
      exact (h 0 ⟨hj, rfl⟩).symm
  | enter =>
      show Function.update l.terminal l.pos 10 j = l.terminal j
      by_cases e : j = l.pos
      · rw [h 10 ⟨e, rfl⟩, e, Function.update_self]
      · exact Function.update_of_ne e ..
  | type c =>
      refine Line.iterate_type 1 fun low high in127 => h c ?_
      have e : j = l.pos := by omega
      exact ⟨e, e ▸ in127, rfl⟩
  | ignored => rfl

end Stores

/-- What the buffer `tb` still holds of a line of which `copied` is copied. -/
structure Remains (tb : Nat → UInt8) (line copied : List UInt8) : Prop where
  room : line.length ≤ 127
  rest : ∃ rest, line = copied ++ rest ∧ 10 ∉ rest ∧
    (List.range' copied.length (rest.length + 1)).map tb = rest ++ [10]

section Copying

variable {tb tb' : Nat → UInt8} {line copied : List UInt8}

/-- No more was copied than the line has. -/
lemma Remains.length_le (h : Remains tb line copied) : copied.length ≤ line.length := by
  obtain ⟨rest, rfl, -⟩ := h.rest
  rw [List.length_append]
  exact Nat.le_add_right ..

/-- The copy loop stops exactly when the line is copied. -/
lemma Remains.stop (h : Remains tb line copied) (newline : tb copied.length = 10) :
    copied = line := by
  obtain ⟨rest, rfl, no, held⟩ := h.rest
  cases rest with
  | nil => exact (List.append_nil _).symm
  | cons c rest =>
      rw [List.range'_succ, List.map_cons, List.cons_append] at held
      obtain ⟨rfl, -⟩ := List.cons.inj held
      exact absurd (newline ▸ List.mem_cons_self) no

/-- A step of the copy loop that does not stop copies the next character of the line. -/
lemma Remains.copy (h : Remains tb line copied) (more : tb copied.length ≠ 10) :
    Remains tb line (copied ++ [tb copied.length]) := by
  refine ⟨h.room, ?_⟩
  obtain ⟨rest, rfl, no, held⟩ := h.rest
  rw [List.range'_succ, List.map_cons] at held
  cases rest with
  | nil => exact absurd (List.cons.inj held).1 more
  | cons c rest =>
      rw [List.cons_append] at held
      obtain ⟨rfl, held⟩ := List.cons.inj held
      refine ⟨rest, by rw [List.append_assoc, List.singleton_append], fun mem => no ?_, ?_⟩
      · exact List.mem_cons_of_mem _ mem
      · rw [List.length_append, List.length_singleton]
        exact held

/-- Only the cells up to the newline that the loop has still to see matter. -/
lemma Remains.congr (h : Remains tb line copied)
    (same : ∀ j, copied.length ≤ j → j ≤ line.length → tb' j = tb j) : Remains tb' line copied := by
  refine ⟨h.room, ?_⟩
  obtain ⟨rest, rfl, no, held⟩ := h.rest
  refine ⟨rest, rfl, no, held ▸ List.map_congr_left fun j hj => ?_⟩
  rw [List.mem_range'_1] at hj
  rw [List.length_append] at same
  exact same j hj.1 (by omega)

/-- When `check_enter` succeeds the buffer holds the line. -/
lemma Line.Ok.remains {l : Line} (ok : l.Ok) (pending : l.Pending) :
    Remains l.terminal l.text [] := by
  have pos := ok.pos
  have newline : l.terminal l.pos = 10 := ok.newline _ (by omega) pending
  refine ⟨l.length_text ▸ ok.pos, l.text, rfl, fun mem => ?_, ?_⟩
  · obtain ⟨j, hj, e⟩ := List.mem_map.mp mem
    exact ok.before j (List.mem_range.mp hj) e
  · rw [l.length_text, List.length_nil, ← List.range_eq_range', List.range_succ, List.map_append,
      List.map_singleton, newline]
    rfl

end Copying

/-- What a run keeps: while the copy loop runs, the terminal it was started on holds the rest. -/
structure Reading (x : Kernel × Reader) : Prop where
  typing : Typing x.1
  intact : x.2.Intact
  remains : ∀ t line copied, x.2 = .copying t line copied →
    t < 3 ∧ Remains (x.1.pane t).terminalBuffer line copied

section Runs

variable {s s' : Kernel} {r : Reader}

/-- A copy loop with the rest of its line before it is intact. -/
lemma Remains.intact {tb : Nat → UInt8} {t : Nat} {line copied : List UInt8}
    (h : Remains tb line copied) : (Reader.copying t line copied).Intact := by
  have length := h.length_le
  have room := h.room
  show copied.length < 128
  omega

/-- A key on the terminal that is read changes only what it stores; elsewhere it changes nothing. -/
lemma Reading.press (h : Reading (s, r)) {k : Key} (hk : ∀ c, k = .type c → c ≠ 10)
    (calm : ∀ t line copied, r = .copying t line copied → s.term.currentTerminalId = t → ∀ j c,
      copied.length ≤ j → j ≤ line.length → k.Stores s.line.pos j c → s.line.terminal j = c) :
    Reading (s.press k, r) := by
  obtain ⟨typing, intact, remains⟩ := h
  have works := worksHere_press typing.display.visible k
  refine ⟨typing.press hk, intact, fun t line copied hr => ?_⟩
  obtain ⟨ht, rem⟩ := remains t line copied hr
  refine ⟨ht, ?_⟩
  by_cases here : s.term.currentTerminalId = t
  · have here' : (s.press k).term.currentTerminalId = t := works.current.trans here
    rw [(pane_line here.symm).1] at rem
    rw [(pane_line here'.symm).1, line_press]
    have room := rem.room
    exact rem.congr fun j low high => Line.press_terminal (by omega) fun c st =>
      calm t line copied hr here j c low high st
  · rw [works.pane (Ne.symm here)]
    exact rem

/-- A switch moves panes and changes none. -/
lemma Reading.switch (h : Reading (s, r)) {fr : Frame} {u : Fin 3} {c : Control}
    (run : s.terminalSwitch fr u = some (s', c)) : Reading (s', r) := by
  obtain ⟨typing, intact, remains⟩ := h
  refine ⟨typing.switch run, intact, fun t line copied hr => ?_⟩
  obtain ⟨ht, rem⟩ := remains t line copied hr
  rcases terminalSwitch_keeps typing.display typing.pages run with rfl | ⟨-, -, -, -, pane, -⟩
  · exact ⟨ht, rem⟩
  · have same : (s'.pane t).terminalBuffer = (s.pane t).terminalBuffer := (pane ⟨t, ht⟩).1
    exact ⟨ht, same ▸ rem⟩

/-- A step of the reader, the copy loop only on the terminal it was started on. -/
lemma Reading.reader (h : Reading (s, r)) {x' : Kernel × Reader}
    (calm : ∀ t line copied, r = .copying t line copied → s.term.currentTerminalId = t)
    (run : readStep (s, r) .reader = some x') : Reading x' := by
  obtain ⟨typing, intact, remains⟩ := h
  cases r with
  | waiting =>
      obtain rfl := Option.some.inj run
      dsimp only
      split_ifs with enter
      · have rem := typing.line.remains (checkEnter_iff.mp enter)
        refine ⟨typing, rem.intact, ?_⟩
        rintro t line copied ⟨⟩
        rw [(pane_line rfl).1]
        exact ⟨typing.current, rem⟩
      · exact ⟨typing, trivial, fun t line copied hr => Reader.noConfusion hr⟩
  | copying t line copied =>
      obtain rfl := Option.some.inj run
      obtain ⟨ht, rem⟩ := remains t line copied rfl
      rw [(pane_line (calm t line copied rfl).symm).1] at rem
      dsimp only
      split_ifs with newline
      · exact ⟨typing, rem.stop newline, fun t line copied hr => Reader.noConfusion hr⟩
      · have rem' := rem.copy newline
        refine ⟨typing, rem'.intact, ?_⟩
        rintro t' line' copied' ⟨⟩
        rw [(pane_line (calm t line copied rfl).symm).1]
        exact ⟨ht, rem'⟩
  | cleaning line copied =>
      obtain rfl := Option.some.inj run
      exact ⟨typing.finishRead, intact, fun t line copied hr => Reader.noConfusion hr⟩
  | returned line copied =>
      obtain rfl := Option.some.inj run
      exact ⟨typing, trivial, fun t line copied hr => Reader.noConfusion hr⟩

/-- A keyboard interrupt leaves the reader where it is. -/
lemma readStep_irq {x x' : Kernel × Reader} {e : KeyEvent} (run : readStep x (.irq e) = some x') :
    x.1.handleKeyboardIrq e.fr e.scancode = some x'.1 ∧ x'.2 = x.2 := by
  obtain ⟨s', he, rfl⟩ := Option.map_eq_some_iff.mp run
  exact ⟨he, rfl⟩

/-- One event that spoils nothing keeps the read going. -/
lemma Reading.step {x x' : Kernel × Reader} {e : ReadEvent} (h : Reading x) (calm : ¬ Spoils x e)
    (run : readStep x e = some x') : Reading x' := by
  obtain ⟨s, r⟩ := x
  obtain ⟨s', r'⟩ := x'
  cases e with
  | reader =>
      refine h.reader (fun t line copied hr => ?_) run
      by_contra away
      exact calm ⟨t, line, copied, hr, away⟩
  | irq e =>
      have he : s.handleKeyboardIrq e.fr e.scancode = some s' := (readStep_irq run).1
      obtain rfl : r' = r := (readStep_irq run).2
      rcases handleKeyboardIrq_cases he with ⟨u, c, -, switch⟩ | ⟨-, rfl⟩
      · exact h.switch switch
      · refine h.press (fun c hk => Mods.type_ne_newline hk)
          fun t line copied hr ht j c low high st => ?_
        by_contra ne
        exact calm ⟨t, line, copied, hr, ht, j, c, low, high, st, ne⟩

end Runs

/-- Without interruption the steps of the reader are `terminalRead`. -/
theorem reader_alone {s s' : Kernel} {buf : Nat} {nbytes n : Int} {copied : List UInt8}
    (run : s.terminalRead buf nbytes = some (n, copied, s')) (completed : n ≠ -1) :
    runs readStep (s, .waiting) (List.replicate (copied.length + 3) .reader)
      = some (s', .returned s.line.text copied) := by
  have copy (t : Nat) (line : List UInt8) (fuel : Nat) (done rest : List UInt8)
      (h : Kernel.copyLine s.term.current.terminalBuffer fuel done.length = some rest) :
      runs readStep (s, .copying t line done) (List.replicate (rest.length + 2) .reader)
        = some (s.finishRead, .returned line (done ++ rest)) := by
    induction fuel generalizing done rest with
    | zero => cases h
    | succ fuel ih =>
        rw [Kernel.copyLine] at h
        rw [List.replicate_succ, runs_cons, readStep]
        dsimp only
        split_ifs at h with newline
        · obtain rfl := Option.some.inj h
          rw [if_pos newline, List.append_nil]
          rfl
        · obtain ⟨rest, hrest, rfl⟩ := Option.map_eq_some_iff.mp h
          rw [if_neg newline, Option.bind_some, List.length_cons, ih (done ++ [_]) rest]
          · rw [List.append_assoc, List.singleton_append]
          · rw [List.length_append, List.length_singleton]
            exact hrest
  rcases terminalRead_cases run with ⟨refused, -, -⟩ | ⟨enter, -, rfl, hline⟩
  · exact absurd refused completed
  · rw [List.replicate_succ, runs_cons, readStep, enter]
    exact copy _ _ _ [] copied hline

/-- **Interrupted reads.** While no event spoils the copy loop, its index stays inside
`terminal_buffer` and a read returns what stood before the newline when `check_enter` first
succeeded. -/
theorem reads_intact (fr : Frame) (b : BootInfo) (s : Kernel) (es : List ReadEvent)
    (h : bootShell fr b = some s)
    (calm : Meets readStep (fun x e => ¬ Spoils x e) (s, .waiting) es) :
    Throughout readStep (fun x => x.2.Intact) (s, .waiting) es := by
  have start : Reading (s, .waiting) :=
    ⟨typing_bootShell h, trivial, fun t line copied hr => Reader.noConfusion hr⟩
  refine ⟨start.intact, along_of_meets Reading ?_ start calm⟩
  intro x e x' inv quiet run
  have inv' := inv.step quiet run
  exact ⟨inv', inv'.intact⟩

/-- a, b, Enter; Backspace and c come while the read copies the line, and c goes where the copy has
been. -/
def sampleRead : List ReadEvent :=
  [.irq ⟨sampleFrame, 0x1E⟩, .irq ⟨sampleFrame, 0x30⟩, .irq ⟨sampleFrame, 0x1C⟩, .reader, .reader,
    .irq ⟨sampleFrame, 0x0E⟩, .reader, .irq ⟨sampleFrame, 0x2E⟩, .reader]

/-- The read returns the line as it was at Enter. -/
theorem reads_intact_sample : ∃ s x, bootShell sampleFrame sampleBoot = some s ∧
    runs readStep (s, .waiting) sampleRead = some x ∧ x.2 = .cleaning [97, 98] [97, 98] ∧
    x.2.Intact := by
  have facts : ((bootShell sampleFrame sampleBoot).bind fun s =>
      (readStep (s, .waiting) (.irq ⟨sampleFrame, 0x1E⟩)).bind fun x₁ =>
      (readStep x₁ (.irq ⟨sampleFrame, 0x30⟩)).bind fun x₂ =>
      (readStep x₂ (.irq ⟨sampleFrame, 0x1C⟩)).bind fun x₃ =>
      (readStep x₃ .reader).bind fun x₄ =>
      (readStep x₄ .reader).bind fun x₅ =>
      (readStep x₅ (.irq ⟨sampleFrame, 0x0E⟩)).bind fun x₆ =>
      (readStep x₆ .reader).bind fun x₇ =>
      (readStep x₇ (.irq ⟨sampleFrame, 0x2E⟩)).bind fun x₈ =>
      (readStep x₈ .reader).map fun x₉ =>
        ([x₄.2, x₆.2, x₇.2, x₈.2, x₉.2], [x₄.1, x₆.1, x₈.1].map fun s => s.term.currentTerminalId,
          x₅.1.kbd.mods.key 0x0E, x₇.1.kbd.mods.key 0x2E, x₇.1.kbd.bufferPosition))
      = some ([.copying 0 [97, 98] [], .copying 0 [97, 98] [97], .copying 0 [97, 98] [97, 98],
          .copying 0 [97, 98] [97, 98], .cleaning [97, 98] [97, 98]], [0, 0, 0], .backspace,
          .type 99, 1) := by
    decide +kernel
  obtain ⟨s, hs, h⟩ := Option.bind_eq_some_iff.mp facts
  obtain ⟨x₁, h₁, h⟩ := Option.bind_eq_some_iff.mp h
  obtain ⟨x₂, h₂, h⟩ := Option.bind_eq_some_iff.mp h
  obtain ⟨x₃, h₃, h⟩ := Option.bind_eq_some_iff.mp h
  obtain ⟨x₄, h₄, h⟩ := Option.bind_eq_some_iff.mp h
  obtain ⟨x₅, h₅, h⟩ := Option.bind_eq_some_iff.mp h
  obtain ⟨x₆, h₆, h⟩ := Option.bind_eq_some_iff.mp h
  obtain ⟨x₇, h₇, h⟩ := Option.bind_eq_some_iff.mp h
  obtain ⟨x₈, h₈, h⟩ := Option.bind_eq_some_iff.mp h
  obtain ⟨x₉, h₉, e⟩ := Option.map_eq_some_iff.mp h
  simp only [Prod.mk.injEq, List.cons.injEq, List.map_cons, and_true] at e
  obtain ⟨⟨r₄, r₆, r₇, r₈, r₉⟩, ⟨c₄, c₆, c₈, -⟩, back, key, pos⟩ := e
  have run : runs readStep (s, .waiting) sampleRead = some x₉ := by
    simp only [sampleRead, runs_cons, runs_nil, h₁, h₂, h₃, h₄, h₅, h₆, h₇, h₈, h₉,
      Option.bind_some]
  have same₁ : x₁.2 = .waiting := (readStep_irq h₁).2
  have same₂ : x₂.2 = .waiting := (readStep_irq h₂).2.trans same₁
  have same₃ : x₃.2 = .waiting := (readStep_irq h₃).2.trans same₂
  have idle {x : Kernel × Reader} (r : x.2 = .waiting) (i : ReadEvent) : ¬ Spoils x i := by
    cases i with
    | irq e =>
        rintro ⟨t, line, copied, hr, -⟩
        exact Reader.noConfusion (r.symm.trans hr)
    | reader =>
        rintro ⟨t, line, copied, hr, -⟩
        exact Reader.noConfusion (r.symm.trans hr)
  have here {x : Kernel × Reader} {line copied : List UInt8} (r : x.2 = .copying 0 line copied)
      (c : x.1.term.currentTerminalId = 0) : ¬ Spoils x .reader := by
    rintro ⟨t, line', copied', hr, away⟩
    obtain ⟨rfl, -, -⟩ := Reader.copying.inj (r.symm.trans hr)
    exact away c
  have erases : ¬ Spoils x₅ (.irq ⟨sampleFrame, 0x0E⟩) := by
    rintro ⟨t, line, copied, -, -, j, c, -, -, stores, -⟩
    rw [back] at stores
    exact stores
  -- c is stored at index 1, which has been copied
  have behind : ¬ Spoils x₇ (.irq ⟨sampleFrame, 0x2E⟩) := by
    rintro ⟨t, line, copied, hr, -, j, c, low, -, stores, -⟩
    obtain ⟨-, -, rfl⟩ := Reader.copying.inj (r₇.symm.trans hr)
    rw [key, pos] at stores
    obtain ⟨rfl, -, -⟩ := stores
    exact absurd low (by decide)
  have calm : Meets readStep (fun x e => ¬ Spoils x e) (s, .waiting) sampleRead :=
    .cons (idle rfl _) h₁ (.cons (idle same₁ _) h₂ (.cons (idle same₂ _) h₃
      (.cons (idle same₃ _) h₄ (.cons (here r₄ c₄) h₅ (.cons erases h₆ (.cons (here r₆ c₆) h₇
        (.cons behind h₈ (.cons (here r₈ c₈) h₉ trivial))))))))
  exact ⟨s, x₉, hs, run, r₉, (reads_intact sampleFrame sampleBoot s _ hs calm).last run⟩

/-- a, Enter; once `check_enter` has succeeded, Ctrl-L clears the newline, and the copy loop reaches
the end of the buffer. -/
theorem not_always_reads_intact :
    ¬ ∀ (fr : Frame) (b : BootInfo) (s : Kernel) (es : List ReadEvent),
    bootShell fr b = some s → Throughout readStep (fun x => x.2.Intact) (s, .waiting) es := by
  intro claim
  have facts : ((bootShell sampleFrame sampleBoot).bind fun s => runs readStep (s, .waiting)
      ([.irq ⟨sampleFrame, 0x1E⟩, .irq ⟨sampleFrame, 0x1C⟩, .reader, .irq ⟨sampleFrame, 0x1D⟩,
        .irq ⟨sampleFrame, 0x26⟩] ++ List.replicate 128 .reader)).map (fun x => decide x.2.Intact)
      = some false := by decide +kernel
  obtain ⟨x, h, e⟩ := Option.map_eq_some_iff.mp facts
  obtain ⟨s, hs, run⟩ := Option.bind_eq_some_iff.mp h
  exact absurd ((claim sampleFrame sampleBoot s _ hs).last run) (of_decide_eq_false e)

end Kernel391
